/-
# Loads while the host stays as it is

While nobody writes a file, all that loads do to their host is to move streams and
to warn: it goes on showing the same (`Host.Resembles`). A loader is steady if its
answers depend on nothing else (`Loader.Steady`), and so is a search that asks
steady loaders (`World.Steady`):

| search | asks |
| --- | --- |
| `firstToClaim` | some loaders in order, each from the start of a stream |
| `findLoad` | the loaders of files that sniff |
| `findLoadInput` | the loaders of the input's kind |
| `loadWith` | nobody; the path of a file is looked at |

So a request comes down to the same load whenever it is made
(`LoadRequest.steady_resolve`), and all that a session still has to do is to load
what it comes down to (`Session.answer_eq`).
-/
import Raster.Proofs.Image.Window
import Raster.Session

namespace Raster

/-! ### What a host shows -/

namespace Host

/-- Two hosts show the same. Where a stream is being read, and what was warned about, is not
shown. -/
structure Resembles (host start : Host) : Prop where
  files : host.files = start.files
  streams : host.streams.map Stream.content = start.streams.map Stream.content
  broken : host.broken = start.broken

namespace Resembles

variable {host start : Host}

/-- Every host shows what it shows. -/
theorem refl (host : Host) : host.Resembles host := ⟨rfl, rfl, rfl⟩

/-- Warnings are not shown. -/
theorem warnAll (h : host.Resembles start) (messages : List String) :
    (host.warnAll messages).Resembles start := by
  induction messages generalizing host with
  | nil => exact h
  | cons message rest ih =>
    have hwarned : (host.warn message).Resembles start := ⟨h.files, h.streams, h.broken⟩
    exact ih hwarned

/-- Nor is the place where a stream is read. -/
theorem seek (h : host.Resembles start) (id position : Nat) :
    (host.seek id position).Resembles start where
  files := h.files
  streams := by
    rw [← h.streams, Host.seek]
    refine List.ext_getElem? fun i => ?_
    rw [List.getElem?_map, List.getElem?_map, List.getElem?_modify]
    cases host.streams[i]? with
    | none => rfl
    | some s => by_cases hi : id = i <;> simp [hi]
  broken := h.broken

/-- Whether a stream can be sought is. -/
theorem seekFault? (h : host.Resembles start) (id : Nat) :
    host.seekFault? id = start.seekFault? id := by
  rw [Host.seekFault?, Host.seekFault?, ← List.getElem?_map, ← List.getElem?_map, h.streams]

end Resembles

/-- The same answer on every host that shows what `start` shows; it goes on showing that. -/
def Steady {α : Type} (start : Host) (step : Host → α × Host) : Prop :=
  ∀ host, host.Resembles start → (step host).1 = (step start).1 ∧ (step host).2.Resembles start

end Host

/-- An image shows some array of packed pixels, which can be held in memory. -/
def Image.IsCoherent (image : Image Empty) (files : Files) : Prop :=
  ∃ pixels, image.Coherent files pixels ∧ pixels.length < 0x8000000000000000

/-- A loader answers by what the host shows and by what it is asked, and by nothing else; the pixels
that it makes are windows of one array. -/
structure Loader.Steady (l : Loader) (start : Host) : Prop where
  isA : ∀ input, start.Steady (l.isA input)
  flags : ∀ input, start.Steady (l.flags input)
  header : ∀ context, start.Steady fun host =>
    ((l.header context host).result, (l.header context host).host)
  decode : ∀ context, start.Steady fun host =>
    ((l.decode context host).result, (l.decode context host).host)
  handed : l.headerOnly = true → ∀ context info image,
    (l.header context start).result = .ok info → info.pixels = some image →
      image.IsCoherent start.files
  decoded : ∀ context image, (l.decode context start).result = .ok image →
    image.IsCoherent start.files

/-! ### Searches -/

namespace World

variable {α : Type} {start : Host} {w w' : World}

/-- From `w` to `w'` nothing happened but that the host was looked at. -/
structure Looks (start : Host) (w w' : World) : Prop where
  host : w'.host.Resembles start
  operations : w'.operations = w.operations
  cache : w'.cache = w.cache

/-- Not looking is looking. -/
theorem Looks.refl (h : w.host.Resembles start) : w.Looks start w := ⟨h, rfl, rfl⟩

/-- Looking twice is looking. -/
theorem Looks.trans {w'' : World} (h : w.Looks start w') (h' : w'.Looks start w'') :
    w.Looks start w'' :=
  ⟨h'.host, h'.operations.trans h.operations, h'.cache.trans h.cache⟩

/-- A search gives the same answer whenever the host shows what `start` shows, and does no more than
look at it. What it finds is `good`. -/
def Steady (start : Host) (good : α → Prop) (search : World → Except Error α × World) : Prop :=
  ∃ answer, (∀ a, answer = .ok a → good a) ∧
    ∀ w, w.host.Resembles start → ∃ w', search w = (answer, w') ∧ w.Looks start w'

/-- A search that finds good things finds what follows from that. -/
theorem Steady.mono {good better : α → Prop} {search : World → Except Error α × World}
    (h : Steady start good search) (hbetter : ∀ a, good a → better a) :
    Steady start better search := by
  obtain ⟨answer, hgood, hsearch⟩ := h
  exact ⟨answer, fun a ha => hbetter a (hgood a ha), hsearch⟩

/-- A search that goes on with what another one found. -/
theorem Steady.andThen {β : Type} {good : α → Prop} {better : β → Prop}
    {search : World → Except Error α × World} {further : α → World → Except Error β × World}
    (h : Steady start good search) (hfurther : ∀ a, good a → Steady start better (further a)) :
    Steady start better fun w => next (search w) further := by
  obtain ⟨answer, hgood, hsearch⟩ := h
  cases answer with
  | error e =>
    refine ⟨.error e, nofun, fun w hw => ?_⟩
    obtain ⟨w', hfound, hlooks⟩ := hsearch w hw
    exact ⟨w', by simp only [hfound, next], hlooks⟩
  | ok a =>
    obtain ⟨answer, hbetter, hrest⟩ := hfurther a (hgood a rfl)
    refine ⟨answer, hbetter, fun w hw => ?_⟩
    obtain ⟨w', hfound, hlooks⟩ := hsearch w hw
    obtain ⟨w'', hanswer, hlooks'⟩ := hrest w' hlooks.host
    exact ⟨w'', by simp only [hfound, next, hanswer], hlooks.trans hlooks'⟩

/-- An answer that asks nobody is steady. -/
theorem steady_pure {good : α → Prop} {answer : Except Error α}
    (hgood : ∀ a, answer = .ok a → good a) : Steady start good fun w => (answer, w) :=
  ⟨answer, hgood, fun w hw => ⟨w, rfl, .refl hw⟩⟩

/-- Putting the stream of an input back to its start. -/
theorem steady_rewind (input : Input) :
    Steady start (fun _ => True) fun w => w.rewind input := by
  cases input with
  | file path => exact steady_pure fun _ _ => trivial
  | buffer bytes => exact steady_pure fun _ _ => trivial
  | stream id =>
    refine ⟨(start.rewind id).1, fun _ _ => trivial, fun w hw => ?_⟩
    simp only [rewind, Host.rewind, hw.seekFault? id]
    cases start.seekFault? id with
    | some fault => exact ⟨_, rfl, .refl hw⟩
    | none => exact ⟨_, rfl, hw.seek id 0, rfl, rfl⟩

/-- A search that looks at the files alone. -/
theorem steady_files {good : α → Prop} {look : World → Except Error α}
    (hlook : ∀ w w' : World, w.files = w'.files → look w = look w')
    (hgood : ∀ w a, look w = .ok a → good a) : Steady start good fun w => (look w, w) := by
  let seen : World := { host := start, cache := { capacity := 0 } }
  exact ⟨look seen, hgood seen, fun w hw => ⟨w, Prod.ext (hlook w seen hw.files) rfl, .refl hw⟩⟩

/-- A path is checked against the files alone. -/
theorem checkFile_congr {w w' : World} (h : w.files = w'.files) (path : String) :
    w.checkFile path = w'.checkFile path := by
  simp only [checkFile, h]

/-- A loader that answers steadily makes a steady question. -/
theorem steady_ask {entry : LoaderEntry} (hsteady : entry.loader.Steady start) (input : Input) :
    Steady start (fun _ => True) fun w => w.ask entry input := by
  refine ⟨(entry.loader.isA input start).1, fun _ _ => trivial, fun w hw => ?_⟩
  obtain ⟨hanswer, hhost⟩ := hsteady.isA input _ hw
  exact ⟨_, Prod.ext hanswer rfl, hhost, rfl, rfl⟩

/-- Loader after loader: the stream is put back, the loader is asked, and the others are asked if
it says no. -/
theorem firstToClaim_cons (input : Input) (entry : LoaderEntry) (rest : List LoaderEntry)
    (w : World) :
    firstToClaim input (entry :: rest) w = next (w.rewind input) fun _ w =>
      next (w.ask entry input) fun claimed w =>
        if claimed then (.ok (some entry), w) else firstToClaim input rest w := by
  rw [firstToClaim]
  obtain ⟨sought, w⟩ := w.rewind input
  cases sought with
  | error e => rfl
  | ok _ =>
    dsimp only [next]
    obtain ⟨answer, w⟩ := w.ask entry input
    cases answer with
    | error e => rfl
    | ok claimed => cases claimed <;> rfl

/-- **The first loader to take an input for its own** is always the same one. -/
theorem steady_firstToClaim (input : Input) {entries : List LoaderEntry}
    (hsteady : ∀ entry ∈ entries, entry.loader.Steady start) :
    Steady start (fun claimed => ∀ entry, claimed = some entry → entry ∈ entries)
      (firstToClaim input entries) := by
  induction entries with
  | nil =>
    refine steady_pure fun claimed hclaimed => ?_
    obtain rfl := Except.ok.inj hclaimed
    rintro entry ⟨⟩
  | cons entry rest ih =>
    rw [funext (firstToClaim_cons input entry rest)]
    refine (steady_rewind input).andThen fun _ _ => ?_
    refine (steady_ask (hsteady entry List.mem_cons_self) input).andThen fun claimed _ => ?_
    cases claimed with
    | true =>
      simp only [if_true]
      refine steady_pure fun claimed hclaimed => ?_
      obtain rfl := Except.ok.inj hclaimed
      rintro _ ⟨⟩
      exact List.mem_cons_self
    | false =>
      simp only [Bool.false_eq_true, if_false]
      refine (ih fun e he => hsteady e (List.mem_cons_of_mem _ he)).mono fun claimed hfound => ?_
      exact fun e he => List.mem_cons_of_mem _ (hfound e he)

end World

namespace Registry

open World

variable {r : Registry} {start : Host}

/-- The loader for a file whose content was claimed, or was not. -/
def claimedOrSuffix (r : Registry) (name : String) (claimed : Option LoaderEntry) :
    Except Error LoaderEntry :=
  match claimed.or ((r.candidates .file).find? fun e =>
    !e.loader.sniffs && e.descriptor.matchesFilename name) with
  | some entry => .ok entry
  | none => .error (.unknownFormat name)

/-- Finding the loader of a file in three steps: the path, the sniffers, and then the suffixes. -/
theorem findLoad_eq (r : Registry) (filename : String) (w : World) :
    r.findLoad filename w =
      next (w.checkFile (Options.splitName filename).1, w) fun _ w =>
        next (firstToClaim (.file (Options.splitName filename).1)
          ((r.candidates .file).filter (·.loader.sniffs)) w) fun claimed w =>
            (r.claimedOrSuffix (Options.splitName filename).1 claimed, w) := by
  rw [findLoad]
  obtain ⟨name, options⟩ := Options.splitName filename
  dsimp only
  cases w.checkFile name with
  | error e => rfl
  | ok _ =>
    dsimp only [next]
    obtain ⟨claimed, w'⟩ :=
      firstToClaim (.file name) ((r.candidates .file).filter (·.loader.sniffs)) w
    cases claimed with
    | error e => rfl
    | ok claimed =>
      cases claimed with
      | some entry => rfl
      | none =>
        dsimp only [claimedOrSuffix, Option.none_or]
        cases (r.candidates .file).find? fun e =>
          !e.loader.sniffs && e.descriptor.matchesFilename name <;> rfl

/-- Candidates are loaders of the registry. -/
theorem mem_loaders_of_mem_candidates {io : IoKind} {entry : LoaderEntry}
    (hentry : entry ∈ r.candidates io) : entry ∈ r.loaders := (List.mem_filter.1 hentry).1

/-- So finding one is steady where all loaders are. -/
theorem steady_findLoad (hsteady : ∀ entry ∈ r.loaders, entry.loader.Steady start)
    (filename : String) : Steady start (· ∈ r.loaders) (r.findLoad filename) := by
  have hsniffing : ∀ entry ∈ (r.candidates .file).filter (·.loader.sniffs), entry ∈ r.loaders :=
    fun entry hentry => mem_loaders_of_mem_candidates (List.mem_filter.1 hentry).1
  rw [funext (r.findLoad_eq filename)]
  refine (steady_files (fun _ _ h => checkFile_congr h _) fun _ _ _ => trivial).andThen
    fun _ (_ : True) => ?_
  refine (steady_firstToClaim _ fun entry hentry => hsteady entry (hsniffing entry hentry)).andThen
    fun claimed hclaimed => steady_pure fun entry hfound => ?_
  cases claimed with
  | some first =>
    obtain rfl := Except.ok.inj hfound
    exact hsniffing _ (hclaimed _ rfl)
  | none =>
    rw [claimedOrSuffix, Option.none_or] at hfound
    split at hfound
    · rename_i hsuffix
      obtain rfl := Except.ok.inj hfound
      exact mem_loaders_of_mem_candidates (List.mem_of_find?_eq_some hsuffix)
    · cases hfound

/-- The loader for an input without a name that was claimed, or was not. -/
def claimedOnly (input : Input) (claimed : Option LoaderEntry) : Except Error LoaderEntry :=
  match claimed with
  | some entry => .ok entry
  | none => .error (.unknownFormat (if input.kind = .buffer then "buffer" else "source"))

/-- For an input without a name there are no suffixes to go by. -/
theorem findLoadInput_eq (r : Registry) {input : Input} (hinput : input.kind ≠ .file) (w : World) :
    r.findLoadInput input w = next (firstToClaim input (r.candidates input.kind) w)
      fun claimed w => (claimedOnly input claimed, w) := by
  unfold findLoadInput
  split
  · exact absurd rfl hinput
  · obtain ⟨claimed, w'⟩ := firstToClaim input (r.candidates input.kind) w
    rcases claimed with e | _ | entry <;> rfl

/-- And finding its loader is steady as well. -/
theorem steady_findLoadInput (hsteady : ∀ entry ∈ r.loaders, entry.loader.Steady start)
    (input : Input) (hinput : input.kind ≠ .file) :
    Steady start (· ∈ r.loaders) (r.findLoadInput input) := by
  rw [funext (r.findLoadInput_eq hinput)]
  refine (steady_firstToClaim _ fun entry hentry => ?_).andThen
    fun claimed hclaimed => steady_pure fun entry hfound => ?_
  · exact hsteady entry (mem_loaders_of_mem_candidates hentry)
  · cases claimed with
    | some first =>
      obtain rfl := Except.ok.inj hfound
      exact mem_loaders_of_mem_candidates (hclaimed _ rfl)
    | none => cases hfound

/-- The loader of an operation, for an input that it can read. -/
def loaderFor (r : Registry) (operation : String) (input : Input) (w : World) :
    Except Error LoaderEntry := do
  let entry ← r.loader operation
  if entry.descriptor.io ≠ input.kind then
    .error (.decode operation s!"cannot read {input.describe}")
  else (Session.checkPath input w).map fun _ => entry

/-- A loader that is asked for by name is found or not, and nobody is asked. -/
theorem steady_loaderFor (r : Registry) (operation : String) (input : Input) :
    Steady start (· ∈ r.loaders) fun w => (r.loaderFor operation input w, w) := by
  refine steady_files (fun w w' hfiles => ?_) fun w entry hfound => ?_
  · have hpath : Session.checkPath input w = Session.checkPath input w' := by
      cases input with
      | file path => exact checkFile_congr hfiles path
      | buffer bytes => rfl
      | stream id => rfl
    simp only [loaderFor, hpath]
  · obtain ⟨named, hloader, hrest⟩ := bind_eq_ok.1 hfound
    have hregistered : named ∈ r.loaders := by
      rw [loader] at hloader
      split at hloader
      · rename_i hnamed
        obtain rfl := Except.ok.inj hloader
        exact List.mem_of_find?_eq_some hnamed
      · cases hloader
    split at hrest
    · cases hrest
    · obtain ⟨_, -, rfl⟩ := map_eq_ok.1 hrest
      exact hregistered

end Registry

/-! ### What a request comes down to -/

/-- A load: of what, with which loader and how. -/
structure LoadPlan where
  entry : LoaderEntry
  input : Input
  /-- The options that are left for the loader. -/
  options : Options
  settings : LoadSettings

namespace LoadPlan

/-- The load of an input, its settings taken out of the options. -/
def make (config : LoadConfig) (input : Input) (options : Options) (entry : LoaderEntry) :
    Except Error LoadPlan :=
  (LoadSettings.take options config).map fun (settings, options) =>
    { entry, input, options, settings }

/-- The key under which the load is shared. -/
def key (p : LoadPlan) : Option String :=
  loadKey p.entry.descriptor.name p.input p.options p.settings

/-- Opens the load, or finds it in the cache. -/
def load (p : LoadPlan) (w : World) : Except Error (Image LoadId) × World :=
  match Session.shared p.settings p.key w with
  | (some id, w) => w.publish id
  | (none, w) => next (Session.openShared p.entry p.input p.options p.settings p.key w)
      fun id w => w.publish id

end LoadPlan

/-- A request for an image. -/
inductive LoadRequest where
  /-- A file, by content or suffix; its name may carry options. -/
  | file (filename : String) (options : Options)
  /-- Bytes in memory, by content. -/
  | buffer (bytes : Bytes) (options : Options)
  /-- A stream, by content. -/
  | stream (id : Nat) (options : Options)
  /-- Any input, by the name of an operation. -/
  | named (operation : String) (input : Input) (options : Options)

namespace LoadRequest

/-- What is to be loaded. -/
def input : LoadRequest → Input
  | file filename _ => .file (Options.splitName filename).1
  | buffer bytes _ => .buffer bytes
  | stream id _ => .stream id
  | named _ input _ => input

/-- The options, those in the name of a file included. -/
def options : LoadRequest → Except Error Options
  | file filename options => (Options.ofName filename).map options.extend
  | buffer _ options | stream _ options | named _ _ options => .ok options

/-- Finds the loader. -/
def find (r : Registry) : LoadRequest → World → Except Error LoaderEntry × World
  | file filename _, w => r.findLoad filename w
  | buffer bytes _, w => r.findLoadInput (.buffer bytes) w
  | stream id _, w => r.findLoadInput (.stream id) w
  | named operation input _, w => (r.loaderFor operation input w, w)

/-- The load that a request comes down to; a stream is put back to its start. -/
def resolve (request : LoadRequest) (s : Session) (w : World) : Except Error LoadPlan × World :=
  next (request.find s.registry w) fun entry w =>
    next (w.rewind request.input) fun _ w =>
      (request.options >>= fun options => LoadPlan.make s.config.load request.input options entry,
        w)

/-- **A request comes down to the same load whenever it is made.** -/
theorem steady_resolve {s : Session} {start : Host}
    (hsteady : ∀ entry ∈ s.registry.loaders, entry.loader.Steady start) (request : LoadRequest) :
    World.Steady start (fun p => p.entry ∈ s.registry.loaders) (request.resolve s) := by
  have hfind : World.Steady start (· ∈ s.registry.loaders) (request.find s.registry) := by
    cases request with
    | file filename options => exact Registry.steady_findLoad hsteady filename
    | buffer bytes options => exact Registry.steady_findLoadInput hsteady (.buffer bytes) nofun
    | stream id options => exact Registry.steady_findLoadInput hsteady (.stream id) nofun
    | named operation input options => exact s.registry.steady_loaderFor operation input
  refine hfind.andThen fun entry hentry => ?_
  refine (World.steady_rewind request.input).andThen fun _ _ => World.steady_pure fun p hp => ?_
  obtain ⟨options, -, hmade⟩ := bind_eq_ok.1 hp
  obtain ⟨_, -, rfl⟩ := map_eq_ok.1 hmade
  exact hentry

end LoadRequest

namespace Session

/-- What a session answers to a request. -/
def answer (s : Session) (request : LoadRequest) (w : World) :
    Except Error (Image LoadId) × World :=
  match request with
  | .file filename options => s.loadFile filename options w
  | .buffer bytes options => s.loadBuffer bytes options w
  | .stream id options => s.loadStream id options w
  | .named operation input options => s.loadWith operation input options w

/-- A load takes its settings out of the options and is planned by the rest. -/
theorem load_eq (s : Session) (entry : LoaderEntry) (input : Input) (options : Options)
    (w : World) :
    s.load entry input options w
      = next (LoadPlan.make s.config.load input options entry, w) LoadPlan.load := by
  rw [load, LoadPlan.make]
  cases LoadSettings.take options s.config.load with
  | error e => rfl
  | ok taken =>
    obtain ⟨settings, options⟩ := taken
    simp only [next, LoadPlan.load, LoadPlan.key, Except.map]
    generalize shared settings (loadKey entry.descriptor.name input options settings) w = found
    obtain ⟨found, w'⟩ := found
    cases found with
    | some id => rfl
    | none =>
      dsimp only
      generalize openShared entry input options settings
        (loadKey entry.descriptor.name input options settings) w' = opened
      obtain ⟨opened, w''⟩ := opened
      cases opened <;> rfl

/-- **A session answers a request by the load that it comes down to.** -/
theorem answer_eq (s : Session) (request : LoadRequest) (w : World) :
    s.answer request w = next (request.resolve s w) LoadPlan.load := by
  cases request with
  | file filename options =>
    rw [answer, loadFile, LoadRequest.resolve, LoadRequest.find]
    obtain ⟨entry, w'⟩ := s.registry.findLoad filename w
    cases entry with
    | error e => rfl
    | ok entry =>
      dsimp only [next, LoadRequest.options]
      cases Options.ofName filename with
      | error e => rfl
      | ok named => exact s.load_eq entry _ _ _
  | buffer bytes options =>
    simp only [answer, loadBuffer, load_eq, LoadRequest.resolve, LoadRequest.find]
    generalize s.registry.findLoadInput (.buffer bytes) w = found
    obtain ⟨entry, w'⟩ := found
    cases entry <;> rfl
  | stream id options =>
    simp only [answer, loadStream, load_eq, LoadRequest.resolve, LoadRequest.find]
    generalize s.registry.findLoadInput (.stream id) w = found
    obtain ⟨entry, w'⟩ := found
    cases entry with
    | error e => rfl
    | ok entry =>
      dsimp only [next, LoadRequest.input]
      obtain ⟨sought, w''⟩ := w'.rewind (.stream id)
      cases sought <;> rfl
  | named operation input options =>
    simp only [answer, loadWith, load_eq, LoadRequest.resolve, LoadRequest.find,
      Registry.loaderFor]
    cases s.registry.loader operation with
    | error e => rfl
    | ok entry =>
      simp only [bind, Except.bind]
      split
      · rfl
      · cases checkPath input w with
        | error e => rfl
        | ok _ =>
          dsimp only [next, Except.map, LoadRequest.input]
          obtain ⟨sought, w'⟩ := w.rewind input
          cases sought <;> rfl

end Session

end Raster
