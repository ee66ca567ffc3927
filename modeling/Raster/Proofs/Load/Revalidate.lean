/-
# Loads that are revalidated

A client that does not trust the cache asks for a load to be revalidated: it is opened again,
whatever the cache has, and later loads should not be answered with an older one. Here loaders
may report what they like, and the host may change at any time.

| of | kept is |
| --- | --- |
| a session, by any event | loads are brought on, the cache gets new ones only (`World.Passes`) |
| a key, by what passes | all that it stands for is new, or is not handed out (`World.Renewed`) |

The cache drops the old load of a key only to keep a new one. So a load that may be shared
renews its key (`LoadPlan.renewed_of_shareable`), but where it may not be shared, an old one
that is still valid stays and answers later loads (`LoadPlan.exists_load_kept`).
-/
import Raster.Proofs.Load.Transparent
import Raster.Proofs.Save.Twins

namespace Raster

/-- The image is one that a load publishes. -/
def Image.Publishes (image : Image LoadId) (id : LoadId) : Prop :=
  ∃ identity, image.source = .pending identity id

/-- An image is published by one load. -/
theorem Image.Publishes.unique {image : Image LoadId} {id id' : LoadId} (h : image.Publishes id)
    (h' : image.Publishes id') : id = id' := by
  obtain ⟨identity, hsource⟩ := h
  obtain ⟨identity', hsource'⟩ := h'
  exact (Source.pending.inj (hsource.symm.trans hsource')).2

/-! ### The cache -/

namespace LoadCache

variable {c : LoadCache} {hasFailed : LoadId → Bool} {key : String} {id : LoadId}

/-- No look-up changes how much fits. -/
theorem capacity_lookUp : (c.lookUp hasFailed key).2.capacity = c.capacity := by
  rw [lookUp]
  split
  · split <;> rfl
  · rfl

/-- No insertion either. -/
theorem capacity_insert : (c.insert key id).capacity = c.capacity := by
  rw [insert]
  split <;> rfl

/-- Where there is no room, a key stands for what it stood for. -/
theorem insert_of_capacity (h : c.capacity = 0) : c.insert key id = c := if_pos h

/-- What was inserted where something fits is there. -/
theorem get?_insert_self (h : c.capacity ≠ 0) : (c.insert key id).table.get? key = some id := by
  rw [insert, if_neg h]
  exact (Fields.get?_insert _ _ _ _).trans (if_pos rfl)

end LoadCache

/-! ### What happens in a session -/

namespace World

variable {w w' : World} {key : String} {id n : LoadId}

/-- From `w` to `w'`, loads are brought on and none is forgotten; the cache may have found room for
loads that were opened since. -/
structure Passes (w w' : World) : Prop where
  loads : ∀ id op, w.operation? id = some op → ∃ op', w'.operation? id = some op' ∧ op.Becomes op'
  capacity : w'.cache.capacity = w.cache.capacity
  cached : ∀ key id, w'.cache.table.get? key = some id →
    w.cache.table.get? key = some id ∨ w.cache.capacity ≠ 0 ∧ w.operations.length ≤ id

/-- Loads only become more. -/
theorem Passes.length_le (h : w.Passes w') : w.operations.length ≤ w'.operations.length := by
  refine Nat.le_of_not_lt fun hlt => ?_
  obtain ⟨op, hop, -⟩ := h.loads _ _ (List.getElem?_eq_getElem hlt)
  exact absurd (List.getElem?_eq_some_iff.1 hop).1 (Nat.lt_irrefl _)

/-- Time passes in steps. -/
theorem Passes.trans {w'' : World} (h : w.Passes w') (h' : w'.Passes w'') : w.Passes w'' where
  loads id op hop := by
    obtain ⟨op', hop', hbecomes⟩ := h.loads id op hop
    obtain ⟨op'', hop'', hbecomes'⟩ := h'.loads id op' hop'
    exact ⟨op'', hop'', hbecomes.trans hbecomes'⟩
  capacity := h'.capacity.trans h.capacity
  cached key id hfound := by
    rcases h'.cached key id hfound with hbefore | ⟨hroom, hsince⟩
    · exact h.cached key id hbefore
    · exact .inr ⟨h.capacity ▸ hroom, Nat.le_trans h.length_le hsince⟩

/-- Where loads and cache are as before, nothing happened to them. -/
theorem passes_of_eq (hoperations : w'.operations = w.operations) (hcache : w'.cache = w.cache) :
    w.Passes w' where
  loads id op hop := ⟨op, by rw [operation?, hoperations]; exact hop, .refl op⟩
  capacity := by rw [hcache]
  cached key id hfound := .inl (hcache ▸ hfound)

/-- So nothing has to happen. -/
theorem Passes.refl (w : World) : w.Passes w := passes_of_eq rfl rfl

/-- Time passes in a chain if it does in both steps, the second of which comes after a success
only. -/
theorem passes_next {α β : Type} {x : Except Error α × World}
    {f : α → World → Except Error β × World} (h : w.Passes x.2)
    (hnext : ∀ a, x.1 = .ok a → x.2.Passes (f a x.2).2) : w.Passes (next x f).2 := by
  obtain ⟨answer, w'⟩ := x
  cases answer with
  | error e => exact h
  | ok a => exact h.trans (hnext a rfl)

/-! #### Looking for a loader -/

/-- Putting a stream back does not touch the loads. -/
theorem passes_rewind (w : World) (input : Input) : w.Passes (w.rewind input).2 := by
  cases input <;> exact passes_of_eq rfl rfl

/-- Nor does asking loaders. -/
theorem passes_firstToClaim (input : Input) (entries : List LoaderEntry) (w : World) :
    w.Passes (firstToClaim input entries w).2 := by
  induction entries generalizing w with
  | nil => exact .refl w
  | cons entry rest ih =>
    rw [firstToClaim_cons]
    refine passes_next (passes_rewind w input) fun _ _ => ?_
    refine passes_next (passes_of_eq rfl rfl) fun claimed _ => ?_
    cases claimed with
    | true => exact .refl _
    | false => exact ih _

/-- So none of it happens in finding the loader of a file. -/
theorem passes_findLoad (r : Registry) (filename : String) (w : World) :
    w.Passes (r.findLoad filename w).2 := by
  rw [r.findLoad_eq]
  exact passes_next (.refl w) fun _ _ => passes_next (passes_firstToClaim _ _ w) fun _ _ => .refl _

/-- Or of another input. -/
theorem passes_findLoadInput (r : Registry) (input : Input) (hinput : input.kind ≠ .file)
    (w : World) : w.Passes (r.findLoadInput input w).2 := by
  rw [r.findLoadInput_eq hinput]
  exact passes_next (passes_firstToClaim _ _ w) fun _ _ => .refl _

/-- Hence not in finding out what a request comes down to. -/
theorem passes_resolve (request : LoadRequest) (s : Session) (w : World) :
    w.Passes (request.resolve s w).2 := by
  have hfind : w.Passes (request.find s.registry w).2 := by
    cases request with
    | file filename options => exact passes_findLoad s.registry filename w
    | buffer bytes options => exact passes_findLoadInput s.registry (.buffer bytes) nofun w
    | stream id options => exact passes_findLoadInput s.registry (.stream id) nofun w
    | named operation input options => exact .refl w
  exact passes_next hfind fun _ _ => passes_next (passes_rewind _ _) fun _ _ => .refl _

/-! #### Pixels -/

/-- Answering for a rectangle leaves the cache. -/
theorem cache_answer (w : World) (id : LoadId) (r : Rect) : (answer id r w).2.cache = w.cache :=
  congrArg (fun answered => answered.2.cache) (answer_withCache w w.cache id r)

/-- It brings a load on, and forgets none. -/
theorem passes_answer (w : World) (id : LoadId) (r : Rect) : w.Passes (answer id r w).2 where
  loads other op hop := by
    obtain ⟨op', -, hop', hbecomes, -⟩ := advances_answer w other id r op hop
    exact ⟨op', hop', hbecomes⟩
  capacity := by rw [cache_answer]
  cached _ _ hfound := .inl (cache_answer w id r ▸ hfound)

/-- So does fetching. -/
theorem passes_fetch (w : World) (image : Image LoadId) (r : Rect) :
    w.Passes (w.fetch image r).2 :=
  fetch_induction (.refl w) (passes_answer w) image r

/-! #### Loads -/

/-- Publishing names a new source, no more. -/
theorem publish_snd (w : World) (id : LoadId) :
    (w.publish id).2.operations = w.operations ∧ (w.publish id).2.cache = w.cache := by
  rw [publish]
  split <;> exact ⟨rfl, rfl⟩

/-- Publishing takes a number for the source of the image, and leaves the load as it is. -/
theorem passes_publish (w : World) (id : LoadId) : w.Passes (w.publish id).2 :=
  passes_of_eq (w.publish_snd id).1 (w.publish_snd id).2

/-- What is published is the image of the load. -/
theorem publish_eq_ok {image : Image LoadId} (h : (w.publish id).1 = .ok image) :
    image.Publishes id := by
  rw [publish] at h
  split at h
  · cases h
  · obtain rfl := Except.ok.inj h
    exact ⟨_, rfl⟩

/-- A load that was opened can be published. -/
theorem exists_publish {op : Operation} (hop : w.operation? id = some op) :
    ∃ image, (w.publish id).1 = .ok image ∧ image.Publishes id := by
  refine ⟨op.image id w.newSource.1, ?_, ⟨_, rfl⟩⟩
  simp only [publish, hop]

/-- A look-up drops what failed. -/
theorem passes_lookUp (w : World) (key : String) : w.Passes (w.lookUp key).2 where
  loads _ op hop := ⟨op, hop, .refl op⟩
  capacity := LoadCache.capacity_lookUp
  cached _ _ hfound := .inl (LoadCache.get?_lookUp hfound)

/-- A load that fails to open leaves the loads alone; another one is the next load. -/
theorem passes_openLoad (p : LoadPlan) (w : World) :
    let opened := w.openLoad p.entry p.input p.options p.settings
    w.Passes opened.2 ∧ ∀ id, opened.1 = .ok id →
      id = w.operations.length ∧ opened.2.cache = w.cache ∧
        ∃ op, opened.2.operations = w.operations ++ [op] := by
  rw [openLoad_eq]
  cases (p.found w.host).result with
  | error e =>
    refine ⟨passes_of_eq rfl rfl, fun id hid => ?_⟩
    cases hid
  | ok info =>
    simp only [next]
    cases Operation.startPhase p.entry.descriptor.name p.entry.loader info with
    | error e =>
      refine ⟨passes_of_eq rfl rfl, fun id hid => ?_⟩
      cases hid
    | ok phase =>
      refine ⟨⟨fun id op hop => ⟨op, ?_, .refl op⟩, rfl, fun _ _ h => .inl h⟩, fun id hid => ?_⟩
      · have hbefore : id < w.operations.length := (List.getElem?_eq_some_iff.1 hop).1
        exact (List.getElem?_append_left hbefore).trans hop
      · exact ⟨(Except.ok.inj hid).symm, rfl, _, rfl⟩

/-- Remembering a load leaves the loads. -/
theorem operations_remember (w : World) (key : String) (id : LoadId) :
    (w.remember key id).operations = w.operations := by
  rw [remember_eq]
  split <;> rfl

/-- Only a load that may be shared is remembered; for any other the cache stays, and with it what it
holds under the key. -/
theorem cache_remember (w : World) (key : String) (id : LoadId) :
    (w.remember key id).cache =
      if Shelf.isShareable w.operations id then w.cache.insert key id else w.cache := by
  rw [remember_eq]
  split <;> rfl

/-- Keeping a load that was opened since. -/
theorem Passes.remember (h : w.Passes w') (hsince : w.operations.length ≤ id) (key : String) :
    w.Passes (w'.remember key id) where
  loads other op hop := by
    obtain ⟨op', hop', hbecomes⟩ := h.loads other op hop
    exact ⟨op', by rw [operation?, operations_remember]; exact hop', hbecomes⟩
  capacity := by
    rw [cache_remember]
    split
    · exact LoadCache.capacity_insert.trans h.capacity
    · exact h.capacity
  cached other found hfound := by
    rw [cache_remember] at hfound
    split at hfound
    · by_cases hroom : w'.cache.capacity = 0
      · exact h.cached other found (LoadCache.insert_of_capacity hroom ▸ hfound)
      · rcases LoadCache.get?_insert hfound with ⟨-, rfl⟩ | hbefore
        · exact .inr ⟨h.capacity ▸ hroom, hsince⟩
        · exact h.cached other found hbefore
    · exact h.cached other found hfound

/-! #### Keys whose loads are new -/

/-- What a key stands for is load `n`, was opened later, or is not handed out any more. -/
structure Renewed (w : World) (key : String) (n : LoadId) : Prop where
  opened : n ≤ w.operations.length
  cached : ∀ id, w.cache.table.get? key = some id → n ≤ id ∨ w.hasFailed id = true

/-- **A key whose loads are new stays so.** -/
theorem Passes.renewed (h : w.Passes w') (hw : w.Renewed key n) : w'.Renewed key n where
  opened := Nat.le_trans hw.opened h.length_le
  cached id hfound := by
    rcases h.cached key id hfound with hbefore | ⟨-, hsince⟩
    · rcases hw.cached id hbefore with hnew | hfailed
      · exact .inl hnew
      · cases hop : w.operation? id with
        | none =>
          -- nothing was opened under this number before
          exact .inl (Nat.le_trans hw.opened (List.getElem?_eq_none_iff.1 hop))
        | some op =>
          obtain ⟨op', hop', hbecomes⟩ := h.loads id op hop
          rw [hasFailed, hop] at hfailed
          rw [hasFailed, hop']
          exact .inr (hbecomes.invalid hfailed)
    · exact .inl (Nat.le_trans hw.opened hsince)

/-- Where nothing is handed out for a key, all that it will stand for is still to be opened. -/
theorem renewed_of_lookUp (h : (w.lookUp key).1 = none) : w.Renewed key w.operations.length where
  opened := Nat.le_refl _
  cached id hfound := by
    refine .inr (Bool.not_eq_false _ ▸ fun hvalid => ?_)
    have hhanded : (w.lookUp key).1 = some id := LoadCache.lookUp_fst_eq_some.2 ⟨hfound, hvalid⟩
    rw [h] at hhanded
    cases hhanded

end World

/-! ### One load -/

namespace LoadPlan

open World

variable {p q : LoadPlan} {w : World} {key : String} {image : Image LoadId}

/-- The same load has the same key, whether or not the cache is asked. -/
theorem Same.key_eq (h : p.Same q) : q.key = p.key := by
  rw [h]
  rfl

/-- Looking for a shared load looks it up at most. -/
theorem passes_shared (settings : LoadSettings) (key : Option String) (w : World) :
    w.Passes (Session.shared settings key w).2 := by
  cases key with
  | none => exact .refl w
  | some key =>
    rw [Session.shared]
    split
    · exact .refl w
    · exact passes_lookUp w key

/-- Opening one adds it to the loads, and to the cache if it fits. -/
theorem passes_openShared (p : LoadPlan) (w : World) :
    let opened := Session.openShared p.entry p.input p.options p.settings p.key w
    w.Passes opened.2 ∧ ∀ id, opened.1 = .ok id → id = w.operations.length := by
  obtain ⟨hopened, hnext⟩ := passes_openLoad p w
  rw [Session.openShared]
  generalize w.openLoad p.entry p.input p.options p.settings = opened at hopened hnext
  obtain ⟨answer, w'⟩ := opened
  cases answer with
  | error e =>
    refine ⟨hopened, fun id hid => ?_⟩
    cases hid
  | ok id =>
    obtain ⟨hid, -⟩ := hnext id rfl
    cases p.key with
    | none => exact ⟨hopened, fun other hother => Except.ok.inj hother ▸ hid⟩
    | some key =>
      exact ⟨hopened.remember (Nat.le_of_eq hid.symm) key,
        fun other hother => Except.ok.inj hother ▸ hid⟩

/-- A load is what the cache hands out, or is opened. -/
theorem load_eq (p : LoadPlan) (w : World) :
    p.load w =
      match (Session.shared p.settings p.key w).1 with
      | some id => (Session.shared p.settings p.key w).2.publish id
      | none => next (Session.openShared p.entry p.input p.options p.settings p.key
          (Session.shared p.settings p.key w).2) fun id w => w.publish id := by
  rw [load]
  cases Session.shared p.settings p.key w with
  | mk handed w' => cases handed <;> rfl

/-- So a load passes in both cases. -/
theorem passes_load (p : LoadPlan) (w : World) : w.Passes (p.load w).2 := by
  have hlooked := passes_shared p.settings p.key w
  rw [load_eq]
  split
  · exact hlooked.trans (passes_publish _ _)
  · exact hlooked.trans (passes_next (passes_openShared p _).1 fun _ _ => passes_publish _ _)

/-- A load that is shared was looked up. -/
theorem lookUp_of_shared {settings : LoadSettings} {id : LoadId}
    (h : (Session.shared settings (some key) w).1 = some id) : (w.lookUp key).1 = some id := by
  rw [Session.shared] at h
  split at h
  · cases h
  · exact h

/-- **Where the loads of its key are new, a load is answered with a new one.** -/
theorem load_renewed {n : LoadId} (hkey : q.key = some key) (hw : w.Renewed key n)
    (hok : (q.load w).1 = .ok image) : ∃ id, image.Publishes id ∧ n ≤ id := by
  have hlooked := passes_shared q.settings q.key w
  rw [load_eq] at hok
  split at hok
  · rename_i id hshared
    obtain ⟨hfound, hvalid⟩ :=
      LoadCache.lookUp_fst_eq_some.1 (lookUp_of_shared (hkey ▸ hshared))
    refine ⟨id, publish_eq_ok hok, (hw.cached id hfound).resolve_right fun hfailed => ?_⟩
    rw [hfailed] at hvalid
    cases hvalid
  · obtain ⟨id, hid, hpublished⟩ := next_eq_ok.1 hok
    have hnew := (passes_openShared q _).2 id hid
    exact ⟨id, publish_eq_ok hpublished, hnew ▸ Nat.le_trans hw.opened hlooked.length_le⟩

/-- **A load that is revalidated is opened,** kept under its key where it may be shared, and
published. -/
theorem load_revalidated (hkey : p.key = some key) (hagain : p.settings.revalidate = true)
    (hok : (p.load w).1 = .ok image) :
    ∃ opened : World, opened.cache = w.cache ∧ (∃ op, opened.operations = w.operations ++ [op]) ∧
      p.load w = (opened.remember key w.operations.length).publish w.operations.length := by
  have hshared : Session.shared p.settings p.key w = (none, w) := by
    rw [hkey, Session.shared, if_pos hagain]
  obtain ⟨-, hnext⟩ := passes_openLoad p w
  rw [load_eq, hshared, hkey, Session.openShared] at hok ⊢
  generalize w.openLoad p.entry p.input p.options p.settings = opened at hnext hok ⊢
  obtain ⟨answer, opened⟩ := opened
  cases answer with
  | error e => cases hok
  | ok id =>
    obtain ⟨rfl, hcache, hoperations⟩ := hnext id rfl
    exact ⟨opened, hcache, hoperations, rfl⟩

/-- What a load that is revalidated leaves behind. -/
theorem load_revalidated_snd (hkey : p.key = some key) (hagain : p.settings.revalidate = true)
    (hok : (p.load w).1 = .ok image) :
    ∃ op, (p.load w).2.operations = w.operations ++ [op] ∧
      (p.load w).2.cache =
        if Shelf.isShareable (w.operations ++ [op]) w.operations.length then
          w.cache.insert key w.operations.length
        else w.cache := by
  obtain ⟨opened, hcache, ⟨op, hoperations⟩, hload⟩ := load_revalidated hkey hagain hok
  obtain ⟨hkept, hkept'⟩ :=
    (opened.remember key w.operations.length).publish_snd w.operations.length
  refine ⟨op, ?_, ?_⟩
  · rw [hload, hkept, operations_remember, hoperations]
  · rw [hload, hkept', cache_remember, hoperations, hcache]

/-- **A load that may be shared renews its key.**  Where the cache has no room, nothing is under
the key. -/
theorem renewed_of_shareable (hkey : p.key = some key) (hagain : p.settings.revalidate = true)
    (hok : (p.load w).1 = .ok image)
    (hroom : w.cache.capacity = 0 → w.cache.table.get? key = none)
    (hshare : Shelf.isShareable (p.load w).2.operations w.operations.length = true) :
    (p.load w).2.Renewed key w.operations.length where
  opened := (passes_load p w).length_le
  cached id hfound := by
    obtain ⟨op, hoperations, hcache⟩ := load_revalidated_snd hkey hagain hok
    rw [hoperations] at hshare
    rw [hcache, if_pos hshare] at hfound
    by_cases hfull : w.cache.capacity = 0
    · rw [LoadCache.insert_of_capacity hfull, hroom hfull] at hfound
      cases hfound
    · rw [LoadCache.get?_insert_self hfull] at hfound
      exact .inl (Nat.le_of_eq (Option.some.inj hfound))

/-- **A load that may not be shared replaces nothing:** what the cache would have handed out before,
it hands out afterwards. -/
theorem exists_load_kept {id : LoadId} (hkey : p.key = some key)
    (hagain : p.settings.revalidate = true) (hok : (p.load w).1 = .ok image)
    (hshare : Shelf.isShareable (p.load w).2.operations w.operations.length = false)
    (hfound : (w.lookUp key).1 = some id) (hsame : p.Same q)
    (hasked : q.settings.revalidate = false) :
    ∃ image', (q.load (p.load w).2).1 = .ok image' ∧ image'.Publishes id ∧
      id < w.operations.length := by
  obtain ⟨hcached, hvalid⟩ := LoadCache.lookUp_fst_eq_some.1 hfound
  obtain ⟨op, hop, hlive⟩ := hasFailed_eq_false.1 hvalid
  obtain ⟨new, hoperations, hcache⟩ := load_revalidated_snd hkey hagain hok
  rw [hoperations] at hshare
  rw [if_neg (Bool.eq_false_iff.1 hshare)] at hcache
  generalize (p.load w).2 = w' at hoperations hcache
  have hid : id < w.operations.length := (List.getElem?_eq_some_iff.1 hop).1
  have hop' : w'.operation? id = some op := by
    rw [operation?, hoperations, List.getElem?_append_left hid]
    exact hop
  have hfound' : (w'.lookUp key).1 = some id :=
    LoadCache.lookUp_fst_eq_some.2 ⟨hcache ▸ hcached, hasFailed_eq_false.2 ⟨op, hop', hlive⟩⟩
  have hshared : (Session.shared q.settings q.key w').1 = some id := by
    rw [hsame.key_eq, hkey, Session.shared, hasked]
    exact hfound'
  have hkept := passes_shared q.settings q.key w'
  obtain ⟨op', hop'', -⟩ := hkept.loads id op hop'
  obtain ⟨image', himage, hpublishes⟩ := exists_publish hop''
  refine ⟨image', ?_, hpublishes, hid⟩
  rw [load_eq, hshared]
  exact himage

end LoadPlan

/-! ### Sessions -/

namespace Session

open World

/-- Something that happens in a session. -/
inductive Event where
  /-- Somebody asks for an image. -/
  | load (request : LoadRequest)
  /-- Somebody fetches a rectangle of an image, or of what was made of one. -/
  | fetch (image : Image LoadId) (r : Rect)
  /-- The cache is emptied. -/
  | clear
  /-- The host changes, and what loaders report with it. -/
  | outside (change : Host → Host)

/-- The world after an event. -/
def occur (s : Session) (w : World) : Event → World
  | .load request => (s.answer request w).2
  | .fetch image r => (w.fetch image r).2
  | .clear => { w with cache := w.cache.clear }
  | .outside change => { w with host := change w.host }

/-- The world after some events. -/
def course (s : Session) (w : World) (events : List Event) : World := events.foldl s.occur w

/-- **What an event makes of a session.** -/
theorem passes_occur (s : Session) (w : World) (event : Event) : w.Passes (s.occur w event) := by
  cases event with
  | load request =>
    rw [occur, answer_eq]
    exact passes_next (passes_resolve request s w) fun p _ => p.passes_load _
  | fetch image r => exact passes_fetch w image r
  | clear =>
    refine ⟨fun id op hop => ⟨op, hop, .refl op⟩, rfl, fun key id hfound => ?_⟩
    cases (Fields.get?_empty key).symm.trans hfound
  | outside change => exact passes_of_eq rfl rfl

/-- **What a course of events makes of a session.** -/
theorem passes_course (s : Session) :
    ∀ (events : List Event) (w : World), w.Passes (s.course w events)
  | [], w => .refl w
  | event :: events, w => (passes_occur s w event).trans (passes_course s events (s.occur w event))

/-- **When revalidating replaces.**  After any events, whatever loaders report, a load that can be
shared by its key is revalidated and gives an image. Then no later load of the same can be answered
with a load that was opened before, exactly if the new load may be shared itself, or the cache had
nothing to hand out for the key. -/
theorem revalidate_replaces_iff (s : Session) (host : Host) (before : List Event) {p : LoadPlan}
    {key : String} {image : Image LoadId} (hkey : p.key = some key)
    (hagain : p.settings.revalidate = true)
    (hok : (p.load (s.course (s.start host) before)).1 = .ok image) :
    let w := s.course (s.start host) before
    let w' := (p.load w).2
    (∀ (later : List Event) (q : LoadPlan) (image' : Image LoadId), p.Same q →
        (q.load (s.course w' later)).1 = .ok image' →
          ∃ id, image'.Publishes id ∧ w.operations.length ≤ id) ↔
      Shelf.isShareable w'.operations w.operations.length = true ∨ (w.lookUp key).1 = none := by
  intro w w'
  constructor
  · intro hnew
    by_cases hshare : Shelf.isShareable w'.operations w.operations.length = true
    · exact .inl hshare
    · refine .inr (Option.eq_none_iff_forall_ne_some.2 fun id hfound => ?_)
      -- the old load would answer the same load right away
      let q : LoadPlan := { p with settings := { p.settings with revalidate := false } }
      obtain ⟨image', hok', hpublishes, hold⟩ := LoadPlan.exists_load_kept (q := q) hkey hagain hok
        (Bool.eq_false_iff.2 hshare) hfound rfl rfl
      obtain ⟨id', hpublishes', hsince⟩ := hnew [] q image' rfl hok'
      obtain rfl := hpublishes.unique hpublishes'
      exact absurd hold (Nat.not_lt_of_le hsince)
  · intro hreplaced
    have hrenewed : w'.Renewed key w.operations.length := by
      rcases hreplaced with hshare | hnothing
      · refine LoadPlan.renewed_of_shareable hkey hagain hok (fun hroom => ?_) hshare
        have hpasses := passes_course s before (s.start host)
        refine Option.eq_none_iff_forall_ne_some.2 fun id hfound => ?_
        rcases hpasses.cached key id hfound with hbefore | ⟨hsome, -⟩
        · cases hbefore
        · exact hsome (hpasses.capacity ▸ hroom)
      · exact (LoadPlan.passes_load p w).renewed (renewed_of_lookUp hnothing)
    intro later q image' hsame hok'
    exact LoadPlan.load_renewed (hsame.key_eq.trans hkey)
      ((passes_course s later w').renewed hrenewed) hok'

/-- A loader of single pixels that reads them from top to bottom only, once device 0 is broken. -/
def fickle : LoaderEntry where
  descriptor := .loader "fickle" .buffer
  number := 0
  loader := {
    isA := fun _ host => (.ok true, host)
    flags := fun _ host => ({ isSequential := host.isBroken 0 }, host)
    header := fun _ host =>
      { result := .ok { header :=
          { width := 1, height := 1, bands := 1, format := .uchar, interpretation := .bw } }
        host }
    decode := fun context host => { result := .error (context.fault "no pixels"), host } }

/-- A session with this loader alone. -/
def fickleSession : Session := { registry := { loaders := [fickle], savers := [] } }

/-- Its load of a buffer. -/
def fickleLoad (settings : LoadSettings) : LoadPlan :=
  { entry := fickle, input := .buffer [1], options := .empty, settings }

/-- The session after the buffer was loaded and device 0 broke. -/
def fickleWorld (options : Options) : World :=
  fickleSession.course (fickleSession.start {})
    [.load (.buffer [1] options), .outside (Host.setBroken · 0 true)]

/-- Pixels may be read in any order, so the second load may be shared: it replaces the first one. -/
theorem revalidate_replaces_iff_random :
    let w := fickleWorld .empty
    let p := fickleLoad { revalidate := true }
    (w.lookUp (p.key.getD "")).1 = some 0 ∧ w.operations.length = 1 ∧
      ∀ (later : List Event) (q : LoadPlan) (image' : Image LoadId), p.Same q →
        (q.load (fickleSession.course (p.load w).2 later)).1 = .ok image' →
          ∃ id, image'.Publishes id ∧ 1 ≤ id := by
  intro w p
  have hlength : w.operations.length = 1 := by decide +kernel
  have hshare : Shelf.isShareable (p.load w).2.operations w.operations.length = true := by
    decide +kernel
  refine ⟨by decide +kernel, hlength, hlength ▸ ?_⟩
  exact (revalidate_replaces_iff fickleSession {}
    [.load (.buffer [1] .empty), .outside (Host.setBroken · 0 true)] (p := p) rfl rfl rfl).2
    (.inl hshare)

/-- **A load that is revalidated, but not replaced:** pixels are to be read from top to bottom, so
the second load may not be shared, and later loads are answered with the first one. -/
theorem revalidate_sequential_kept :
    let w := fickleWorld (Fields.empty.insert "access" "sequential")
    let p := fickleLoad { access := .sequential, revalidate := true }
    let q := fickleLoad { access := .sequential }
    p.Same q ∧ (∃ image, (p.load w).1 = .ok image ∧ image.Publishes 1) ∧
      ∃ image', (q.load (p.load w).2).1 = .ok image' ∧ image'.Publishes 0 := by
  intro w p q
  have hshare : Shelf.isShareable (p.load w).2.operations w.operations.length = false := by
    decide +kernel
  have hfound : (w.lookUp (p.key.getD "")).1 = some 0 := by decide +kernel
  obtain ⟨image', hok, hpublishes, -⟩ :=
    LoadPlan.exists_load_kept (p := p) (q := q) rfl rfl rfl hshare hfound rfl rfl
  exact ⟨rfl, ⟨_, rfl, _, rfl⟩, image', hok, hpublishes⟩

end Session

end Raster
