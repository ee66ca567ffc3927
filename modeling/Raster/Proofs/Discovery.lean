/-
# Which loader is found

A registry lists the handlers that were accepted by falling priority, ties as they
were registered (`Registry.Ranked`). Discovery goes through this list:

| step | ends the search if |
| --- | --- |
| a path is looked at | it leads nowhere, or to a directory |
| a stream is put back to its start, before each loader | it cannot be sought |
| loaders that sniff are asked | one says yes, or fails |
| names are compared, for a file, with the suffixes of the other loaders | one matches |

`World.Scanned` says what the second and third steps come to, `Registry.Finds` the
whole search, and `findLoadInput_ofRegistrations` that this is what is found. A loader
is asked about a stream from its start, so neither where the stream stood before nor
where other loaders left it can be seen (`findLoadInput_leavingAt`). A stream that
cannot be sought ends the search before anybody is asked (`findLoadInput_stuck`).
-/
import Raster.Handler.Scripted
import Raster.Proofs.Host
import Raster.Proofs.Load.Steady
import Raster.Proofs.Sorting

namespace Raster

/-! ### The order of a registry -/

namespace Registration

/-- Which of its lists a registry would put the handler into. -/
def side : Registration → Direction
  | loader .. => .load
  | saver .. => .save

/-- The handlers of one side that are accepted, in the order of their registration. -/
def accepted (side : Direction) (registrations : List Registration) : List Registration :=
  registrations.filter fun r => r.side = side ∧ r.problem = none

end Registration

/-- A loader's entry as it was registered. -/
def LoaderEntry.registration (e : LoaderEntry) : Registration := .loader e.descriptor e.loader

/-- A saver's entry as it was registered. -/
def SaverEntry.registration (e : SaverEntry) : Registration := .saver e.descriptor e.saver

namespace Registry

/-- The entries of one side that can be used are those of the handlers that are accepted. -/
theorem registration_usable {α : Type} {make : Nat → Registration → Option α}
    {registration : α → Registration} {side : Direction}
    (hsome : ∀ {n r e}, make n r = some e → registration e = r ∧ r.side = side)
    (hnone : ∀ {n r}, make n r = none → r.side ≠ side) (registrations : List Registration)
    (n : Nat) :
    (usable make n registrations).map registration
      = Registration.accepted side registrations := by
  induction registrations generalizing n with
  | nil => rfl
  | cons r rest ih =>
    rw [usable]
    cases hentry : make n r with
    | none =>
      rw [Registration.accepted, List.filter_cons_of_neg (by simp [hnone hentry])]
      exact ih n
    | some e =>
      obtain ⟨hregistered, hside⟩ := hsome hentry
      dsimp only
      cases hproblem : r.problem with
      | some reason =>
        rw [Option.isSome_some, if_pos rfl, Registration.accepted,
          List.filter_cons_of_neg (by simp [hproblem])]
        exact ih (n + 1)
      | none =>
        rw [Option.isSome_none, if_neg Bool.false_ne_true, List.map_cons, hregistered, ih,
          Registration.accepted, Registration.accepted,
          List.filter_cons_of_pos (by simp [hside, hproblem])]

/-- The loaders that are kept are the accepted ones, in the order of their registration. -/
theorem registration_usableLoaders (registrations : List Registration) :
    (usableLoaders registrations).map LoaderEntry.registration
      = Registration.accepted .load registrations := by
  refine registration_usable (fun {n r e} h => ?_) (fun {n r} h => ?_) registrations 0
  · cases r with
    | loader d l => exact ⟨Option.some.inj h ▸ rfl, rfl⟩
    | saver d s => cases h
  · cases r with
    | loader d l => cases h
    | saver d s => exact nofun

/-- So are the savers. -/
theorem registration_usableSavers (registrations : List Registration) :
    (usableSavers registrations).map SaverEntry.registration
      = Registration.accepted .save registrations := by
  refine registration_usable (fun {n r e} h => ?_) (fun {n r} h => ?_) registrations 0
  · cases r with
    | loader d l => cases h
    | saver d s => exact ⟨Option.some.inj h ▸ rfl, rfl⟩
  · cases r with
    | loader d l => exact nofun
    | saver d s => cases h

/-- Handlers listed by falling priority, those of one priority as they were accepted. -/
structure Ranked (accepted listed : List Registration) : Prop where
  perm : listed.Perm accepted
  falling : listed.Pairwise fun a b => b.descriptor.priority ≤ a.descriptor.priority
  ties : ∀ priority, (listed.filter fun r => r.descriptor.priority = priority) =
    accepted.filter fun r => r.descriptor.priority = priority

/-- Falling priority is transitive, which sorting asks for. -/
theorem falling_trans {α : Type} (priority : α → Int) (a b c : α)
    (hab : decide (priority b ≤ priority a) = true)
    (hbc : decide (priority c ≤ priority b) = true) : decide (priority c ≤ priority a) = true :=
  decide_eq_true (Int.le_trans (of_decide_eq_true hbc) (of_decide_eq_true hab))

/-- And total. -/
theorem falling_total {α : Type} (priority : α → Int) (a b : α) :
    (decide (priority b ≤ priority a) || decide (priority a ≤ priority b)) = true := by
  rw [Bool.or_eq_true, decide_eq_true_eq, decide_eq_true_eq]
  exact Int.le_total ..

/-- **Sorting by priority ranks.** -/
theorem ranked_byPriority {α : Type} (entries : List α) (registration : α → Registration) :
    Ranked (entries.map registration)
      ((byPriority (fun e => (registration e).descriptor.priority) entries).map registration) := by
  let priorityOf := fun e => (registration e).descriptor.priority
  refine ⟨(List.mergeSort_perm entries _).map registration, ?_, fun priority => ?_⟩
  · rw [List.pairwise_map]
    exact (List.pairwise_mergeSort (falling_trans priorityOf) (falling_total priorityOf)
      entries).imp of_decide_eq_true
  · rw [List.filter_map, List.filter_map]
    refine congrArg _ (filter_mergeSort (falling_trans priorityOf) (falling_total priorityOf)
      (fun a b ha hb => decide_eq_true ?_) entries)
    have ha : priorityOf a = priority := of_decide_eq_true ha
    have hb : priorityOf b = priority := of_decide_eq_true hb
    exact Int.le_of_eq (hb.trans ha.symm)

/-- **Accepted loaders are listed by falling priority,** ties in the order of registration. -/
theorem ranked_loaders (registrations : List Registration) :
    Ranked (Registration.accepted .load registrations)
      ((ofRegistrations registrations).loaders.map LoaderEntry.registration) :=
  registration_usableLoaders registrations ▸ ranked_byPriority _ LoaderEntry.registration

/-- **So are accepted savers.** -/
theorem ranked_savers (registrations : List Registration) :
    Ranked (Registration.accepted .save registrations)
      ((ofRegistrations registrations).savers.map SaverEntry.registration) :=
  registration_usableSavers registrations ▸ ranked_byPriority _ SaverEntry.registration

/-- Whoever is listed was accepted. -/
theorem problem_of_mem_loaders {registrations : List Registration} {e : LoaderEntry}
    (he : e ∈ (ofRegistrations registrations).loaders) : e.registration.problem = none := by
  have hlisted := (ranked_loaders registrations).perm.mem_iff.1 (List.mem_map_of_mem he)
  exact (of_decide_eq_true (List.mem_filter.1 hlisted).2).2

end Registry

/-! ### Asking one loader after the other -/

namespace World

/-- Asked one after the other about an input, each from its start, some loaders say no. -/
inductive Declined (input : Input) : List LoaderEntry → World → World → Prop
  | nil (w : World) : Declined input [] w w
  | cons {entry : LoaderEntry} {rest : List LoaderEntry} {w w₁ w₂ w₃ : World}
    (hback : w.rewind input = (.ok (), w₁)) (hno : w₁.ask entry input = (.ok false, w₂))
    (hrest : Declined input rest w₂ w₃) : Declined input (entry :: rest) w w₃

/-- What comes of asking some loaders about an input: the first to say yes or to complain, a stream
that cannot be put back for the next of them, or nobody. -/
inductive Scanned (input : Input) (entries : List LoaderEntry) (w : World) :
    Except Error (Option LoaderEntry) → World → Prop
  | nobody {w' : World} (hno : Declined input entries w w') :
    Scanned input entries w (.ok none) w'
  | claimed {before after : List LoaderEntry} {entry : LoaderEntry} {w₁ w₂ w' : World}
    (hentries : entries = before ++ entry :: after) (hno : Declined input before w w₁)
    (hback : w₁.rewind input = (.ok (), w₂)) (hyes : w₂.ask entry input = (.ok true, w')) :
    Scanned input entries w (.ok (some entry)) w'
  | complained {before after : List LoaderEntry} {entry : LoaderEntry} {w₁ w₂ w' : World}
    {e : Error} (hentries : entries = before ++ entry :: after) (hno : Declined input before w w₁)
    (hback : w₁.rewind input = (.ok (), w₂)) (hfault : w₂.ask entry input = (.error e, w')) :
    Scanned input entries w (.error e) w'
  | stuck {before after : List LoaderEntry} {entry : LoaderEntry} {w₁ w' : World} {e : Error}
    (hentries : entries = before ++ entry :: after) (hno : Declined input before w w₁)
    (hstuck : w₁.rewind input = (.error e, w')) : Scanned input entries w (.error e) w'

variable {input : Input} {entry : LoaderEntry} {before rest entries : List LoaderEntry}
  {w w₁ w₂ w' : World} {found : Except Error (Option LoaderEntry)}

/-- Loaders that say no are passed over. -/
theorem Declined.firstToClaim_append (hno : Declined input before w w₁) :
    firstToClaim input (before ++ rest) w = firstToClaim input rest w₁ := by
  induction hno with
  | nil w => rfl
  | cons hback hasked _ ih =>
    rw [List.cons_append, firstToClaim_cons, hback, ← ih]
    dsimp only [next]
    rw [hasked]
    rfl

/-- One more loader in front that does not claim the input. -/
theorem Scanned.cons (hback : w.rewind input = (.ok (), w₁))
    (hno : w₁.ask entry input = (.ok false, w₂)) (h : Scanned input entries w₂ found w') :
    Scanned input (entry :: entries) w found w' := by
  cases h with
  | nobody hrest => exact .nobody (.cons hback hno hrest)
  | claimed hentries hrest hnext hyes =>
    exact .claimed (by rw [hentries, List.cons_append]) (.cons hback hno hrest) hnext hyes
  | complained hentries hrest hnext hfault =>
    exact .complained (by rw [hentries, List.cons_append]) (.cons hback hno hrest) hnext hfault
  | stuck hentries hrest hstuck =>
    exact .stuck (by rw [hentries, List.cons_append]) (.cons hback hno hrest) hstuck

/-- Asking one loader after another ends in one of the ways of `Scanned`. -/
theorem scanned_firstToClaim (input : Input) (entries : List LoaderEntry) (w : World) :
    Scanned input entries w (firstToClaim input entries w).1
      (firstToClaim input entries w).2 := by
  induction entries generalizing w with
  | nil => exact .nobody (.nil w)
  | cons entry rest ih =>
    rw [firstToClaim_cons]
    obtain ⟨sought, w₁, hback⟩ : ∃ sought w₁, w.rewind input = (sought, w₁) := ⟨_, _, rfl⟩
    rw [hback]
    cases sought with
    | error e => exact .stuck (List.nil_append _).symm (.nil w) hback
    | ok _ =>
      dsimp only [next]
      cases hasked : w₁.ask entry input with
      | mk answer w₂ =>
        cases answer with
        | error e => exact .complained (List.nil_append _).symm (.nil w) hback hasked
        | ok claimed =>
          cases claimed with
          | true => exact .claimed (List.nil_append _).symm (.nil w) hback hasked
          | false => exact (ih w₂).cons hback hasked

/-- **The first to claim an input** is what comes of asking. -/
theorem firstToClaim_eq_iff :
    firstToClaim input entries w = (found, w') ↔ Scanned input entries w found w' := by
  constructor
  · intro h
    have hscanned := scanned_firstToClaim input entries w
    rw [h] at hscanned
    exact hscanned
  · intro h
    cases h with
    | nobody hno =>
      have hpassed : firstToClaim input (entries ++ []) w = firstToClaim input [] w' :=
        hno.firstToClaim_append
      rw [List.append_nil] at hpassed
      exact hpassed
    | claimed hentries hno hback hyes =>
      rw [hentries, hno.firstToClaim_append, firstToClaim_cons, hback]
      dsimp only [next]
      rw [hyes]
      rfl
    | complained hentries hno hback hfault =>
      rw [hentries, hno.firstToClaim_append, firstToClaim_cons, hback]
      dsimp only [next]
      rw [hfault]
    | stuck hentries hno hstuck =>
      rw [hentries, hno.firstToClaim_append, firstToClaim_cons, hstuck]
      rfl

end World

/-! ### The whole search -/

/-- A loader that discovery may ask about inputs of a kind. -/
def LoaderEntry.Serves (e : LoaderEntry) (io : IoKind) : Prop :=
  e.descriptor.io = io ∧ e.descriptor.blocked = false ∧
    ¬"rawload".toList <+: e.descriptor.name.toList

instance (e : LoaderEntry) (io : IoKind) : Decidable (e.Serves io) :=
  inferInstanceAs (Decidable (_ ∧ _ ∧ ¬_))

/-- What the loaders are asked about: a file without the options in its name. -/
def Input.sought : Input → Input
  | .file path => .file (Options.splitName path).1
  | other => other

/-- What nobody recognised, in an error's words. -/
def Input.unknownName : Input → String
  | .file path => (Options.splitName path).1
  | .buffer _ => "buffer"
  | .stream _ => "source"

/-- Whether an input is there: a path has to lead to a file. -/
def World.Holds (w : World) : Input → Prop
  | .file path => ∃ id, w.files.node (Options.splitName path).1 = .ok (.file id)
  | _ => True

namespace Registry

/-- The loaders that tell an input's format by its content, in the order in which they are
asked. -/
def sniffers (r : Registry) (io : IoKind) : List LoaderEntry :=
  r.loaders.filter fun e => e.Serves io ∧ e.loader.sniffs = true

/-- The loaders that tell a file's format by its name alone. -/
def namers (r : Registry) : List LoaderEntry :=
  r.loaders.filter fun e => e.Serves .file ∧ e.loader.sniffs = false

/-- No suffix of some loaders matches an input: it is no file, or has another name. -/
def NoneNamed (input : Input) (entries : List LoaderEntry) : Prop :=
  ∀ path, input = .file path → ∀ e ∈ entries,
    e.descriptor.matchesFilename (Options.splitName path).1 = false

/-- **What discovery finds,** and the world it leaves. -/
inductive Finds (r : Registry) (w : World) :
    Input → Except Error LoaderEntry → World → Prop
  | missing {path : String} {fault : IoFault}
    (hnode : w.files.node (Options.splitName path).1 = .error fault) :
    Finds r w (.file path) (.error (.inputNotFound (Options.splitName path).1)) w
  | directory {path : String} (hnode : w.files.node (Options.splitName path).1 = .ok .directory) :
    Finds r w (.file path) (.error (.inputIsDirectory (Options.splitName path).1)) w
  | sniffed {input : Input} {entry : LoaderEntry} {w' : World} (hholds : w.Holds input)
    (hscan : World.Scanned input.sought (r.sniffers input.kind) w (.ok (some entry)) w') :
    Finds r w input (.ok entry) w'
  | failed {input : Input} {e : Error} {w' : World} (hholds : w.Holds input)
    (hscan : World.Scanned input.sought (r.sniffers input.kind) w (.error e) w') :
    Finds r w input (.error e) w'
  | named {path : String} {before after : List LoaderEntry} {entry : LoaderEntry} {w' : World}
    (hholds : w.Holds (.file path))
    (hscan : World.Scanned (Input.file path).sought (r.sniffers .file) w (.ok none) w')
    (hnamers : r.namers = before ++ entry :: after) (hbefore : NoneNamed (.file path) before)
    (hmatch : entry.descriptor.matchesFilename (Options.splitName path).1 = true) :
    Finds r w (.file path) (.ok entry) w'
  | unknown {input : Input} {w' : World} (hholds : w.Holds input)
    (hscan : World.Scanned input.sought (r.sniffers input.kind) w (.ok none) w')
    (hnone : NoneNamed input r.namers) :
    Finds r w input (.error (.unknownFormat input.unknownName)) w'

variable {r : Registry} {w w' : World}

/-- Two things keep a handler from being found: a block, and the name of the raw readers. -/
theorem isDiscoverable_iff {d : Descriptor} : d.isDiscoverable = true ↔
    d.blocked = false ∧ ¬"rawload".toList <+: d.name.toList := by
  rw [Descriptor.isDiscoverable, Bool.and_eq_true, Bool.not_eq_true', Bool.not_eq_true',
    Text.startsWith, ← List.isPrefixOf_iff_prefix, Bool.not_eq_true]

/-- The candidates are the loaders that serve inputs of a kind, in their order. -/
theorem candidates_eq (r : Registry) (io : IoKind) :
    r.candidates io = r.loaders.filter fun e => e.Serves io := by
  refine List.filter_congr fun e _ => ?_
  rw [Bool.eq_iff_iff, Bool.and_eq_true, beq_iff_eq, isDiscoverable_iff, decide_eq_true_eq]
  rfl

/-- Those of them that sniff come first. -/
theorem filter_sniffs_candidates (r : Registry) (io : IoKind) :
    (r.candidates io).filter (·.loader.sniffs) = r.sniffers io := by
  rw [candidates_eq, List.filter_filter]
  refine List.filter_congr fun e _ => ?_
  rw [Bool.decide_and, Bool.and_comm, Bool.decide_eq_true]

/-- The others are asked for their suffixes. -/
theorem find?_candidates (r : Registry) (name : String) :
    ((r.candidates .file).find? fun e =>
      !e.loader.sniffs && e.descriptor.matchesFilename name) =
        r.namers.find? fun e => e.descriptor.matchesFilename name := by
  rw [candidates_eq, namers, List.find?_filter, List.find?_filter]
  congr 1
  funext e
  cases e.loader.sniffs <;> simp

/-- Where a loader of buffers or streams is registered only if it sniffs, all that serve are
asked. -/
theorem candidates_ofRegistrations (registrations : List Registration) {io : IoKind}
    (hio : io ≠ .file) : (ofRegistrations registrations).candidates io
      = (ofRegistrations registrations).sniffers io := by
  rw [← filter_sniffs_candidates]
  refine (List.filter_eq_self.2 fun e he => ?_).symm
  have hlisted := List.mem_filter.1 he
  have hserves : e.descriptor.io = io := by
    have hkind := hlisted.2
    rw [Bool.and_eq_true, beq_iff_eq] at hkind
    exact hkind.1
  have haccepted := problem_of_mem_loaders hlisted.1
  -- a loader that cannot sniff would have been left out
  by_contra hblind
  rw [LoaderEntry.registration, Registration.problem] at haccepted
  split at haccepted
  · cases haccepted
  · rw [if_pos ⟨hserves ▸ hio, by simpa using hblind⟩] at haccepted
    cases haccepted

/-- A path that leads to a file is searched, any other one refused. -/
theorem checkFile_eq (w : World) (path : String) : w.checkFile path =
    match w.files.node path with
    | .error _ => .error (.inputNotFound path)
    | .ok .directory => .error (.inputIsDirectory path)
    | .ok (.file _) => .ok () := by
  rw [World.checkFile, Files.pathExists, Files.isDirectory]
  cases w.files.node path with
  | error fault => rfl
  | ok node => cases node <;> rfl

/-- What was found for a file whose content was claimed, or was not. -/
theorem finds_claimedOrSuffix {path : String} {claimed : Option LoaderEntry}
    (hholds : w.Holds (.file path))
    (hscan : World.Scanned (Input.file path).sought (r.sniffers .file) w (.ok claimed) w') :
    r.Finds w (.file path) (r.claimedOrSuffix (Options.splitName path).1 claimed) w' := by
  rw [claimedOrSuffix, find?_candidates]
  cases claimed with
  | some entry => exact .sniffed hholds hscan
  | none =>
    rw [Option.none_or]
    split
    · rename_i entry hentry
      obtain ⟨hmatch, before, after, hsplit, hbefore⟩ := List.find?_eq_some_iff_append.1 hentry
      refine .named hholds hscan hsplit ?_ hmatch
      rintro _ ⟨⟩ e he
      simpa using hbefore e he
    · rename_i hnone
      refine .unknown hholds hscan ?_
      rintro _ ⟨⟩ e he
      simpa using List.find?_eq_none.1 hnone e he

/-- What is found for a file is one of the findings of `Finds`; that there is no other is
`findLoad_eq_iff`. -/
theorem finds_findLoad (r : Registry) (path : String) (w : World) :
    r.Finds w (.file path) (r.findLoad path w).1 (r.findLoad path w).2 := by
  rw [findLoad_eq, checkFile_eq, filter_sniffs_candidates]
  cases hnode : w.files.node (Options.splitName path).1 with
  | error fault => exact .missing hnode
  | ok node =>
    cases node with
    | directory => exact .directory hnode
    | file id =>
      have hscan := World.scanned_firstToClaim (.file (Options.splitName path).1)
        (r.sniffers .file) w
      dsimp only [next]
      generalize World.firstToClaim (.file (Options.splitName path).1) (r.sniffers .file) w
        = scan at hscan ⊢
      obtain ⟨answer, w'⟩ := scan
      cases answer with
      | error e => exact .failed ⟨id, hnode⟩ hscan
      | ok claimed => exact finds_claimedOrSuffix ⟨id, hnode⟩ hscan

/-- What there is to find for a file that is there. -/
theorem findLoad_of_scanned {path : String} {answer : Except Error (Option LoaderEntry)}
    (hholds : w.Holds (.file path))
    (hscan : World.Scanned (Input.file path).sought (r.sniffers .file) w answer w') :
    r.findLoad path w =
      (answer >>= fun claimed => r.claimedOrSuffix (Options.splitName path).1 claimed, w') := by
  obtain ⟨id, hnode⟩ := hholds
  have hclaim := World.firstToClaim_eq_iff.2 hscan
  rw [Input.sought] at hclaim
  rw [findLoad_eq, checkFile_eq, filter_sniffs_candidates, hnode]
  dsimp only [next]
  rw [hclaim]
  cases answer <;> rfl

/-- **What is found for a file.** -/
theorem findLoad_eq_iff {path : String} {found : Except Error LoaderEntry} :
    r.findLoad path w = (found, w') ↔ r.Finds w (.file path) found w' := by
  constructor
  · intro h
    have hfinds := r.finds_findLoad path w
    rw [h] at hfinds
    exact hfinds
  · intro h
    cases h with
    | missing hnode => rw [findLoad_eq, checkFile_eq, hnode]; rfl
    | directory hnode => rw [findLoad_eq, checkFile_eq, hnode]; rfl
    | sniffed hholds hscan => rw [findLoad_of_scanned hholds hscan]; rfl
    | failed hholds hscan => rw [findLoad_of_scanned hholds hscan]; rfl
    | @named _ before after entry _ hholds hscan hnamers hbefore hmatch =>
      have hfind : (r.namers.find? fun e =>
          e.descriptor.matchesFilename (Options.splitName path).1) = some entry :=
        List.find?_eq_some_iff_append.2
          ⟨hmatch, before, after, hnamers, fun e he => by rw [hbefore path rfl e he]; rfl⟩
      rw [findLoad_of_scanned hholds hscan]
      simp only [bind, Except.bind, claimedOrSuffix, find?_candidates, hfind, Option.none_or]
    | unknown hholds hscan hnone =>
      have hfind : (r.namers.find? fun e =>
          e.descriptor.matchesFilename (Options.splitName path).1) = none :=
        List.find?_eq_none.2 fun e he => by rw [hnone path rfl e he]; exact Bool.false_ne_true
      rw [findLoad_of_scanned hholds hscan]
      simp only [bind, Except.bind, claimedOrSuffix, find?_candidates, hfind, Option.none_or]
      rfl

/-! #### Inputs without a name -/

section Unnamed

variable {input : Input} (hinput : input.kind ≠ .file)
include hinput

/-- An input without a name is asked about as it is. -/
theorem sought_of_unnamed : input.sought = input := by
  cases input with
  | file path => exact absurd rfl hinput
  | buffer bytes => rfl
  | stream id => rfl

/-- No path has to lead to it. -/
theorem holds_of_unnamed : w.Holds input := by
  cases input with
  | file path => exact absurd rfl hinput
  | buffer bytes => trivial
  | stream id => trivial

/-- Where nobody claims it, its format is unknown. -/
theorem claimedOnly_none : claimedOnly input none = .error (.unknownFormat input.unknownName) := by
  cases input with
  | file path => exact absurd rfl hinput
  | buffer bytes => rfl
  | stream id => rfl

/-- What was found for an input that was claimed, or was not. -/
theorem finds_claimedOnly {claimed : Option LoaderEntry}
    (hscan : World.Scanned input.sought (r.sniffers input.kind) w (.ok claimed) w') :
    r.Finds w input (claimedOnly input claimed) w' := by
  cases claimed with
  | some entry => exact .sniffed (holds_of_unnamed hinput) hscan
  | none =>
    rw [claimedOnly_none hinput]
    refine .unknown (holds_of_unnamed hinput) hscan ?_
    rintro path rfl
    exact absurd rfl hinput

/-- What there is to find, where every loader that serves the input sniffs. -/
theorem findLoadInput_of_scanned {answer : Except Error (Option LoaderEntry)}
    (hsniff : r.candidates input.kind = r.sniffers input.kind)
    (hscan : World.Scanned input.sought (r.sniffers input.kind) w answer w') :
    r.findLoadInput input w = (answer >>= claimedOnly input, w') := by
  rw [sought_of_unnamed hinput] at hscan
  rw [findLoadInput_eq r hinput, hsniff, World.firstToClaim_eq_iff.2 hscan]
  cases answer <;> rfl

/-- **What is found for a buffer or a stream,** where every loader that serves it sniffs. -/
theorem findLoadInput_eq_iff {found : Except Error LoaderEntry}
    (hsniff : r.candidates input.kind = r.sniffers input.kind) :
    r.findLoadInput input w = (found, w') ↔ r.Finds w input found w' := by
  constructor
  · intro h
    have hscan := World.scanned_firstToClaim input.sought (r.sniffers input.kind) w
    rw [findLoadInput_of_scanned hinput hsniff hscan] at h
    generalize World.firstToClaim input.sought (r.sniffers input.kind) w = scan at h hscan
    obtain ⟨answer, w₁⟩ := scan
    cases h
    cases answer with
    | error e => exact .failed (holds_of_unnamed hinput) hscan
    | ok claimed => exact finds_claimedOnly hinput hscan
  · intro h
    cases h with
    | missing => exact absurd rfl hinput
    | directory => exact absurd rfl hinput
    | named => exact absurd rfl hinput
    | sniffed _ hscan => exact findLoadInput_of_scanned hinput hsniff hscan
    | failed _ hscan => exact findLoadInput_of_scanned hinput hsniff hscan
    | unknown _ hscan =>
      rw [← claimedOnly_none hinput]
      exact findLoadInput_of_scanned hinput hsniff hscan

end Unnamed

end Registry

/-! ### Where a stream is read -/

/-- The host with a stream read somewhere else. -/
def World.seek (w : World) (id position : Nat) : World :=
  { w with host := w.host.seek id position }

/-- The loader, leaving a stream somewhere else when it has looked at an input. -/
def Loader.leavingAt (l : Loader) (id : Nat) (left : Host → Nat) : Loader :=
  { l with isA := fun input host =>
      ((l.isA input host).1, (l.isA input host).2.seek id (left (l.isA input host).2)) }

/-- The entry of the loader that leaves a stream somewhere else. -/
def LoaderEntry.leavingAt (e : LoaderEntry) (id : Nat) (left : LoaderEntry → Host → Nat) :
    LoaderEntry :=
  { e with loader := e.loader.leavingAt id (left e) }

/-- The registry with loaders that leave a stream somewhere else. -/
def Registry.leavingAt (r : Registry) (id : Nat) (left : LoaderEntry → Host → Nat) : Registry :=
  { r with loaders := r.loaders.map fun e => e.leavingAt id left }

/-- A stream that was put back stands at its start. -/
theorem World.position_rewind {w w' : World} {id : Nat}
    (h : w.rewind (.stream id) = (.ok (), w')) : w'.host.position id = .ok 0 := by
  rw [rewind, Host.rewind] at h
  cases hfault : w.host.seekFault? id with
  | some fault =>
    rw [hfault] at h
    cases h
  | none =>
    rw [hfault] at h
    obtain rfl := (Prod.mk.inj h).2
    dsimp only
    rw [Host.position, Host.seekFault?_seek, hfault]
    dsimp only [Host.seek]
    rw [List.getElem?_modify_eq]
    cases w.host.streams[id]? <;> rfl

/-- Whether a stream can be put back does not depend on where it is read, nor does the world once it
was put back. -/
theorem World.rewind_seek (w : World) (id position : Nat) :
    (w.seek id position).rewind (.stream id) =
      match w.rewind (.stream id) with
      | (.error e, w) => (.error e, w.seek id position)
      | (.ok _, w) => (.ok (), w) := by
  simp only [rewind, seek, Host.rewind, Host.seekFault?_seek, Host.seek_seek]
  cases w.host.seekFault? id <;> rfl

namespace World

/-- **Where a stream stood and where loaders leave it** makes no difference to which of them is
the first to claim it. -/
theorem firstToClaim_leavingAt (id : Nat) (left : LoaderEntry → Host → Nat)
    (entries : List LoaderEntry) (w : World) (position : Nat) :
    (firstToClaim (.stream id) (entries.map fun e => e.leavingAt id left) (w.seek id position)).1
      = (firstToClaim (.stream id) entries w).1.map (Option.map fun e => e.leavingAt id left) := by
  induction entries generalizing w position with
  | nil => rfl
  | cons entry rest ih =>
    rw [List.map_cons, firstToClaim_cons, firstToClaim_cons, rewind_seek]
    obtain ⟨sought, w⟩ := w.rewind (.stream id)
    cases sought with
    | error e => rfl
    | ok _ =>
      have hask : w.ask (entry.leavingAt id left) (.stream id) = ((w.ask entry (.stream id)).1,
          (w.ask entry (.stream id)).2.seek id (left entry (w.ask entry (.stream id)).2.host)) :=
        rfl
      dsimp only [next]
      rw [hask]
      obtain ⟨answer, w'⟩ := w.ask entry (.stream id)
      cases answer with
      | error e => rfl
      | ok claimed =>
        cases claimed with
        | true => rfl
        | false => exact ih w' (left entry w'.host)

end World

/-- **Neither where a stream stood nor how far loaders read it** changes which loader is found. -/
theorem Registry.findLoadInput_leavingAt (r : Registry) (id position : Nat)
    (left : LoaderEntry → Host → Nat) (w : World) :
    ((r.leavingAt id left).findLoadInput (.stream id) (w.seek id position)).1
      = (r.findLoadInput (.stream id) w).1.map fun e => e.leavingAt id left := by
  have hcandidates : (r.leavingAt id left).candidates .stream
      = (r.candidates .stream).map fun e => e.leavingAt id left := by
    rw [candidates, candidates, leavingAt, List.filter_map]
    rfl
  have hclaim := World.firstToClaim_leavingAt id left (r.candidates .stream) w position
  have hstream : (Input.stream id).kind ≠ .file := nofun
  rw [findLoadInput_eq _ hstream, findLoadInput_eq _ hstream]
  dsimp only [Input.kind]
  rw [hcandidates]
  generalize World.firstToClaim (.stream id)
    ((r.candidates .stream).map fun e => e.leavingAt id left) (w.seek id position) = moved
      at hclaim ⊢
  generalize World.firstToClaim (.stream id) (r.candidates .stream) w = still at hclaim ⊢
  obtain ⟨answer, w₁⟩ := moved
  obtain ⟨answer', w₂⟩ := still
  obtain rfl : answer = answer'.map (Option.map fun e => e.leavingAt id left) := hclaim
  rcases answer' with e | _ | entry <;> rfl

/-- **Discovery.** The handlers that were accepted are listed by falling priority, ties in the
order of their registration. What is found for an input, and the world that is left, is what
`Finds` says: a path that leads nowhere or to a directory is refused and nobody is asked; else the
loaders of the input's kind that sniff, and are neither blocked nor readers of raw samples, are
asked in this order until one claims the input or complains, or until the stream cannot be put back
for the next of them; and if nobody does, the first of the others whose suffixes match the name of a
file is found. About a stream, loaders are asked from its start; so neither where it stood nor how
far any of them reads it can be seen in what is found. -/
theorem Registry.findLoadInput_ofRegistrations (registrations : List Registration) :
    let r := ofRegistrations registrations
    Ranked (Registration.accepted .load registrations)
        (r.loaders.map LoaderEntry.registration) ∧
      Ranked (Registration.accepted .save registrations)
        (r.savers.map SaverEntry.registration) ∧
      (∀ (input : Input) (w w' : World) (found : Except Error LoaderEntry),
        r.findLoadInput input w = (found, w') ↔ r.Finds w input found w') ∧
      (∀ (w w' : World) (id : Nat), w.rewind (.stream id) = (.ok (), w') →
        w'.host.position id = .ok 0) ∧
      ∀ (id position : Nat) (left : LoaderEntry → Host → Nat) (w : World),
        ((r.leavingAt id left).findLoadInput (.stream id) (w.seek id position)).1
          = (r.findLoadInput (.stream id) w).1.map fun e => e.leavingAt id left := by
  intro r
  refine ⟨ranked_loaders registrations, ranked_savers registrations, fun input w w' found => ?_,
    fun _ _ _ => World.position_rewind, r.findLoadInput_leavingAt⟩
  cases input with
  | file path => exact findLoad_eq_iff
  | buffer bytes =>
    have hbuffer : (Input.buffer bytes).kind ≠ .file := nofun
    exact findLoadInput_eq_iff hbuffer (candidates_ofRegistrations registrations hbuffer)
  | stream id =>
    have hstream : (Input.stream id).kind ≠ .file := nofun
    exact findLoadInput_eq_iff hstream (candidates_ofRegistrations registrations hstream)

/-- The only loader of streams complains about every one of them; but a stream that cannot be sought
is given up first, and nobody is asked. -/
theorem Registry.findLoadInput_stuck :
    let script : LoaderScript := { device := 0, magic := some [0], behaviours := [.claimFails] }
    let r := ofRegistrations [.loader (.loader "fake" .stream) script.loader]
    let w : World :=
      { host := { streams := [{ content := .stuck .notSeekable }] }, cache := { capacity := 0 } }
    (∃ entry, r.sniffers .stream = [entry] ∧
        (w.ask entry (.stream 0)).1 = .error (.colour "is_a failed")) ∧
      (r.findLoadInput (.stream 0) w).1 = .error (.io .notSeekable) ∧
      (r.findLoadInput (.stream 0) w).2.calls = [] := by
  intro script r w
  let entry : LoaderEntry :=
    { descriptor := .loader "fake" .stream, loader := script.loader, number := 0 }
  have hloaders : r.loaders = [entry] := List.mergeSort_singleton _
  have hsniffers : r.sniffers .stream = [entry] := by
    rw [sniffers, hloaders]
    exact List.filter_cons_of_pos (by decide +kernel)
  have hstream : (Input.stream 0).kind ≠ .file := nofun
  have hfound : r.findLoadInput (.stream 0) w = (.error (.io .notSeekable), w) :=
    (findLoadInput_eq_iff hstream (candidates_ofRegistrations _ hstream)).2
      (.failed trivial (.stuck (hsniffers.trans (List.nil_append _).symm) (.nil w) rfl))
  exact ⟨⟨entry, hsniffers, rfl⟩, congrArg Prod.fst hfound, by rw [hfound]⟩

end Raster
