/-
# The cache is not seen

A client asks a session for images and fetches rectangles of those it was answered
with. Whatever the cache keeps, drops or hands out, its answers depict the views of
its requests:

| of | kept is |
| --- | --- |
| the cache | a key stands for a load that presents the view of every load with this key (`World.Consistent`) |
| a session | loads present what they did (`World.Answered`) |
| a visit | answers depict the views of the requests (`Session.Reflects`) |

These views do not depend on the cache. So a session with a cache and the same session
without one cannot be told apart (`Session.visit_uncached`).
-/
import Mathlib.Data.List.Forall2
import Raster.Proofs.Load.CacheList
import Raster.Proofs.Load.Views

namespace Raster

/-! ### What the cache hands out -/

namespace LoadCache

variable {c : LoadCache}

/-- Making room forgets keys, no more. -/
theorem get?_evict {capacity : Nat} {key : String} {id : LoadId} :
    ∀ {queue : List String} {table : Fields LoadId},
      (evict capacity queue table).2.get? key = some id → table.get? key = some id
  | [], _, h => h
  | oldest :: rest, table, h => by
    rw [evict] at h
    split at h
    · have hkept := get?_evict h
      rw [Fields.get?_erase] at hkept
      split at hkept
      · cases hkept
      · exact hkept
    · exact h

/-- What is left after a key was forgotten was there before. -/
theorem get?_forget {key other : String} {id : LoadId}
    (h : (c.forget key).table.get? other = some id) : c.table.get? other = some id := by
  rw [forget, Fields.get?_erase] at h
  split at h
  · cases h
  · exact h

/-- Only the new load is found under its key, and under another key what was found before. -/
theorem get?_insert {key other : String} {id found : LoadId}
    (h : (c.insert key id).table.get? other = some found) :
    other = key ∧ found = id ∨ c.table.get? other = some found := by
  rw [insert] at h
  split at h
  · exact .inr h
  · rw [Fields.get?_insert] at h
    split at h
    · rename_i hkey
      exact .inl ⟨hkey, (Option.some.inj h).symm⟩
    · exact .inr (get?_forget (get?_evict h))

/-- So is what is left after a look-up, which forgets at most. -/
theorem get?_lookUp {hasFailed : LoadId → Bool} {key other : String} {id : LoadId}
    (h : (c.lookUp hasFailed key).2.table.get? other = some id) :
    c.table.get? other = some id := by
  rw [lookUp] at h
  split at h
  · split at h
    · exact get?_forget h
    · exact h
  · exact h

/-- What is handed out for a key was found under it. -/
theorem get?_of_lookUp {hasFailed : LoadId → Bool} {key : String} {id : LoadId}
    (h : (c.lookUp hasFailed key).1 = some id) : c.table.get? key = some id := by
  rw [lookUp] at h
  split at h
  · rename_i found hfound
    split at h
    · cases h
    · exact hfound.trans h
  · cases h

end LoadCache

namespace World

variable {start : Host} {plans : LoadPlan → Prop} {w w' : World}

/-- The host shows what `start` shows, and what a key stands for presents the view of every load
that has this key and may be asked for. -/
structure Consistent (start : Host) (plans : LoadPlan → Prop) (w : World) : Prop where
  host : w.host.Resembles start
  cached : ∀ key id, w.cache.table.get? key = some id → ∀ p, plans p → p.key = some key →
    ∃ view, p.view start = .ok view ∧ w.Presents start id view

/-- A consistent session stays so while loads present what they did. -/
theorem Continues.consistent (h : w.Continues start w') (hw : Consistent start plans w) :
    Consistent start plans w' where
  host := h.host
  cached key id hfound p hp hkey := by
    obtain ⟨view, hview, hpresents⟩ := hw.cached key id (h.cached key id hfound) p hp hkey
    exact ⟨view, hview, h.presents id view hpresents⟩

/-- A look-up changes no load. -/
theorem continues_lookUp (hw : w.host.Resembles start) (key : String) :
    w.Continues start (w.lookUp key).2 :=
  ⟨hw, fun _ _ h => h, fun _ _ => LoadCache.get?_lookUp⟩

/-- Keeping a load that presents the view of every load with its key. -/
theorem Consistent.remember (hw : Consistent start plans w) {key : String} {id : LoadId}
    (hkept : ∀ p, plans p → p.key = some key →
      ∃ view, p.view start = .ok view ∧ w.Presents start id view) :
    Consistent start plans (w.remember key id) := by
  rw [remember_eq]
  split
  · refine ⟨hw.host, fun other found hfound p hp hkey => ?_⟩
    rcases LoadCache.get?_insert hfound with ⟨rfl, rfl⟩ | hbefore
    · exact hkept p hp hkey
    · exact hw.cached other found hbefore p hp hkey
  · exact hw

/-- Remembering a load changes none either. -/
theorem Presents.remember {id : LoadId} {view : View} (h : w.Presents start id view)
    (key : String) (kept : LoadId) : (w.remember key kept).Presents start id view := by
  rw [remember_eq]
  split
  · exact h
  · exact h

/-- From `w` to `w'` something was answered: the session stays consistent, and loads present what
they did. -/
structure Answered (start : Host) (plans : LoadPlan → Prop) (w w' : World) : Prop where
  consistent : Consistent start plans w'
  presents : ∀ id view, w.Presents start id view → w'.Presents start id view

/-- Where nothing was remembered, an answer is a continuation. -/
theorem answered_of_continues {w' : World} (hw : Consistent start plans w)
    (h : w.Continues start w') : Answered start plans w w' :=
  ⟨h.consistent hw, h.presents⟩

/-- Answers come one after another. -/
theorem Answered.trans {w' w'' : World} (h : Answered start plans w w')
    (h' : Answered start plans w' w'') : Answered start plans w w'' :=
  ⟨h'.consistent, fun id view hpresents => h'.presents id view (h.presents id view hpresents)⟩

end World

/-! ### One request -/

namespace LoadPlan

open World

variable {start : Host} {plans : LoadPlan → Prop} {w : World} {p : LoadPlan}

/-- Loads with one key are the same, but for whether the cache is asked. -/
def KeysApart (plans : LoadPlan → Prop) : Prop :=
  ∀ p q key, plans p → plans q → p.key = some key → q.key = some key → p.Same q

/-- The cache hands out a load that it has under the key. -/
theorem shared_spec (hw : w.host.Resembles start) (settings : LoadSettings) (key : Option String) :
    w.Continues start (Session.shared settings key w).2 ∧
      ∀ id, (Session.shared settings key w).1 = some id →
        ∃ k, key = some k ∧ w.cache.table.get? k = some id := by
  cases key with
  | none => exact ⟨.refl hw, nofun⟩
  | some key =>
    rw [Session.shared]
    split
    · exact ⟨.refl hw, nofun⟩
    · exact ⟨continues_lookUp hw key, fun id hid => ⟨key, rfl, LoadCache.get?_of_lookUp hid⟩⟩

/-- Opening a load and keeping it under its key. -/
theorem openShared_spec (hapart : KeysApart plans) (hp : plans p)
    (hsteady : p.entry.loader.Steady start) (hw : Consistent start plans w) :
    let opened := Session.openShared p.entry p.input p.options p.settings p.key w
    Answered start plans w opened.2 ∧
      Agree (fun view id => opened.2.Presents start id view) (p.view start) opened.1 := by
  obtain ⟨hcontinues, hagree⟩ := openLoad_presents hsteady hw.host
  rw [Session.openShared]
  generalize w.openLoad p.entry p.input p.options p.settings = opened at hcontinues hagree
  obtain ⟨answer, w'⟩ := opened
  have hanswered := answered_of_continues hw hcontinues
  generalize hview : p.view start = shown at hagree
  cases hagree with
  | error e => exact ⟨hanswered, .error e⟩
  | @ok view id hpresents =>
    cases hkey : p.key with
    | none => exact ⟨hanswered, .ok hpresents⟩
    | some key =>
      have hkept : Consistent start plans (w'.remember key id) := by
        refine hanswered.consistent.remember fun q hq hqkey => ⟨view, ?_, hpresents⟩
        rw [(hapart p q key hp hq hkey hqkey).view, hview]
      exact ⟨⟨hkept, fun other view h => (hanswered.presents other view h).remember key id⟩,
        .ok (hpresents.remember key id)⟩

/-- **A load is answered by its view,** whether it is opened or handed out by the cache. -/
theorem load_spec (hapart : KeysApart plans) (hp : plans p)
    (hsteady : p.entry.loader.Steady start) (hw : Consistent start plans w) :
    Answered start plans w (p.load w).2 ∧
      Agree ((p.load w).2.Depicts start) (p.view start) (p.load w).1 := by
  obtain ⟨hlooked, hhanded⟩ := shared_spec hw.host p.settings p.key
  rw [load]
  generalize Session.shared p.settings p.key w = looked at hlooked hhanded
  obtain ⟨handed, w'⟩ := looked
  have hanswered := answered_of_continues hw hlooked
  cases handed with
  | some id =>
    -- Another plan may have opened this load: with its key it shares its view.
    obtain ⟨key, hkey, hfound⟩ := hhanded id rfl
    obtain ⟨view, hview, hpresents⟩ := hw.cached key id hfound p hp hkey
    obtain ⟨image, w'', hpublish, hcontinues, hdepicts⟩ :=
      publish_presents hanswered.consistent.host (hanswered.presents id view hpresents)
    simp only [hpublish, hview]
    exact ⟨hanswered.trans (answered_of_continues hanswered.consistent hcontinues), .ok hdepicts⟩
  | none =>
    obtain ⟨hopened, hagree⟩ := openShared_spec hapart hp hsteady hanswered.consistent
    dsimp only
    generalize Session.openShared p.entry p.input p.options p.settings p.key w' = opened
      at hopened hagree
    obtain ⟨answer, w''⟩ := opened
    generalize p.view start = shown at hagree
    cases hagree with
    | error e => exact ⟨hanswered.trans hopened, .error e⟩
    | @ok view id hpresents =>
      obtain ⟨image, w₃, hpublish, hcontinues, hdepicts⟩ :=
        publish_presents hopened.consistent.host hpresents
      simp only [next, hpublish]
      exact ⟨(hanswered.trans hopened).trans
        (answered_of_continues hopened.consistent hcontinues), .ok hdepicts⟩

end LoadPlan

/-! ### Clients -/

/-- Something that a client does. -/
inductive Deed where
  /-- It asks for an image. -/
  | load (request : LoadRequest)
  /-- It fetches a rectangle of the image that request `n` was answered with. -/
  | fetch (n : Nat) (r : Rect)

/-- The request that is made, if one is. -/
def Deed.request? : Deed → Option LoadRequest
  | load request => some request
  | fetch .. => none

/-- What a client was answered, and the session as it is then. -/
structure Visit where
  answers : List (Except Error (Image LoadId)) := []
  world : World

namespace Session

/-- What a deed makes of a visit. -/
def perform (s : Session) (visit : Visit) : Deed → Visit
  | .load request =>
    let (answer, world) := s.answer request visit.world
    { answers := visit.answers ++ [answer], world }
  | .fetch n r =>
    match visit.answers[n]? with
    | some (.ok image) => { visit with world := (visit.world.fetch image r).2 }
    | _ => visit

/-- What a client is answered in a new session. -/
def visit (s : Session) (start : Host) (deeds : List Deed) : Visit :=
  deeds.foldl s.perform { world := s.start start }

/-- The session without a cache. -/
def uncached (s : Session) : Session :=
  { s with config := { s.config with cache := { s.config.cache with enabled := false } } }

/-- The load that a request comes down to while the host shows what `start` shows. -/
def plan (s : Session) (start : Host) (request : LoadRequest) : Except Error LoadPlan :=
  (request.resolve s { host := start, cache := { capacity := 0 } }).1

/-- What can be seen of the load of a request. -/
def view (s : Session) (start : Host) (request : LoadRequest) : Except Error View :=
  s.plan start request >>= fun p => p.view start

/-- The loads that requests come down to. -/
def loads (s : Session) (start : Host) (requests : List LoadRequest) (p : LoadPlan) : Prop :=
  ∃ request ∈ requests, s.plan start request = .ok p

variable {s : Session} {start : Host} {plans : LoadPlan → Prop}

/-- What is planned is planned with a loader of the registry. -/
theorem mem_loaders_of_plan (hsteady : ∀ entry ∈ s.registry.loaders, entry.loader.Steady start)
    {request : LoadRequest} {p : LoadPlan} (hplan : s.plan start request = .ok p) :
    p.entry ∈ s.registry.loaders := by
  obtain ⟨answer, hregistered, hresolve⟩ := LoadRequest.steady_resolve hsteady request
  obtain ⟨_, hseen, -⟩ := hresolve { host := start, cache := { capacity := 0 } } (.refl start)
  refine hregistered p ?_
  rw [← hplan, plan, hseen]

open World in
/-- **A request is answered by its view.** -/
theorem answer_spec (hsteady : ∀ entry ∈ s.registry.loaders, entry.loader.Steady start)
    (hapart : LoadPlan.KeysApart plans)
    {request : LoadRequest} (hplan : ∀ p, s.plan start request = .ok p → plans p) {w : World}
    (hw : Consistent start plans w) :
    Answered start plans w (s.answer request w).2 ∧
      Agree ((s.answer request w).2.Depicts start) (s.view start request)
        (s.answer request w).1 := by
  obtain ⟨answer, hregistered, hresolve⟩ := LoadRequest.steady_resolve hsteady request
  obtain ⟨_, hseen, -⟩ := hresolve { host := start, cache := { capacity := 0 } } (.refl start)
  obtain ⟨w', hfound, hlooks⟩ := hresolve w hw.host
  have hanswer : s.plan start request = answer := congrArg Prod.fst hseen
  have hlooked := answered_of_continues hw hlooks.continues
  rw [answer_eq, hfound, view, hanswer]
  cases answer with
  | error e => exact ⟨hlooked, .error e⟩
  | ok p =>
    obtain ⟨hloaded, hagree⟩ := LoadPlan.load_spec hapart (hplan p hanswer)
      (hsteady p.entry (hregistered p rfl)) hlooked.consistent
    exact ⟨hlooked.trans hloaded, hagree⟩

/-- The answers of a visit depict views, and its session is consistent. -/
structure Reflects (start : Host) (plans : LoadPlan → Prop) (views : List (Except Error View))
    (visit : Visit) : Prop where
  consistent : World.Consistent start plans visit.world
  answers : List.Forall₂ (Agree (visit.world.Depicts start)) views visit.answers

/-- An image that was answered depicts one of the views. -/
theorem Reflects.exists_view {views : List (Except Error View)} {visit : Visit}
    (h : Reflects start plans views visit) {n : Nat} {image : Image LoadId}
    (hasked : visit.answers[n]? = some (.ok image)) :
    ∃ view, .ok view ∈ views ∧ visit.world.Depicts start view image := by
  obtain ⟨hn, hanswer⟩ := List.getElem?_eq_some_iff.1 hasked
  have hviews : n < views.length := h.answers.length_eq ▸ hn
  have hagree := h.answers.get hviews hn
  rw [List.get_eq_getElem, List.get_eq_getElem, hanswer] at hagree
  generalize hshown : views[n] = shown at hagree
  cases hagree with
  | @ok view _ hdepicts => exact ⟨view, hshown ▸ List.getElem_mem hviews, hdepicts⟩

/-- **A deed adds the view of its request, if it is one.** -/
theorem reflects_perform (hsteady : ∀ entry ∈ s.registry.loaders, entry.loader.Steady start)
    (hapart : LoadPlan.KeysApart plans)
    (deed : Deed)
    (hplan : ∀ request, deed.request? = some request → ∀ p, s.plan start request = .ok p → plans p)
    {views : List (Except Error View)} {visit : Visit} (h : Reflects start plans views visit) :
    Reflects start plans (views ++ (deed.request?.map (s.view start)).toList)
      (s.perform visit deed) := by
  -- what was answered before goes on depicting its view
  have hbefore : ∀ {w : World}, (∀ id view, visit.world.Presents start id view →
      w.Presents start id view) → List.Forall₂ (Agree (w.Depicts start)) views visit.answers :=
    fun hpresents => h.answers.imp fun _ _ hshown =>
      hshown.mono fun _ _ hdepicts => hdepicts.mono hpresents
  cases deed with
  | load request =>
    obtain ⟨hanswered, hagree⟩ := answer_spec hsteady hapart (hplan request rfl) h.consistent
    exact ⟨hanswered.consistent, List.rel_append (hbefore hanswered.presents) (.cons hagree .nil)⟩
  | fetch n r =>
    rw [Deed.request?, Option.map_none, Option.toList_none, List.append_nil, perform]
    split
    · rename_i image hasked
      obtain ⟨view, -, id, identity, rfl, hpresents⟩ := h.exists_view hasked
      obtain ⟨hcontinues, -⟩ := World.fetch_presents h.consistent.host hpresents identity r
      exact ⟨hcontinues.consistent h.consistent, hbefore hcontinues.presents⟩
    · exact h

/-- The requests that are made. -/
def requests (deeds : List Deed) : List LoadRequest := deeds.filterMap Deed.request?

/-- **The answers of a whole visit depict the views of its requests.** -/
theorem reflects_foldl (hsteady : ∀ entry ∈ s.registry.loaders, entry.loader.Steady start)
    (hapart : LoadPlan.KeysApart plans) :
    ∀ {deeds : List Deed} {views : List (Except Error View)} {visit : Visit},
      (∀ request ∈ requests deeds, ∀ p, s.plan start request = .ok p → plans p) →
        Reflects start plans views visit →
          Reflects start plans (views ++ (requests deeds).map (s.view start))
            (deeds.foldl s.perform visit)
  | [], views, visit, _, h => by
    rw [requests, List.filterMap_nil, List.map_nil, List.append_nil]
    exact h
  | deed :: deeds, views, visit, hplan, h => by
    have hmade : requests (deed :: deeds) = deed.request?.toList ++ requests deeds := by
      rw [requests, List.filterMap_cons]
      cases deed.request? <;> rfl
    rw [hmade] at hplan ⊢
    have hfirst := reflects_perform hsteady hapart deed
      (fun request hrequest => hplan request (List.mem_append_left _ (by simp [hrequest]))) h
    have hrest := reflects_foldl hsteady hapart
      (fun request hrequest => hplan request (List.mem_append_right _ hrequest)) hfirst
    rw [List.map_append, ← List.append_assoc, ← Option.toList_map]
    exact hrest

/-- **A whole visit reflects the views of its requests,** by induction on what the client does. -/
theorem reflects_visit (hsteady : ∀ entry ∈ s.registry.loaders, entry.loader.Steady start)
    {deeds : List Deed} (hapart : LoadPlan.KeysApart (s.loads start (requests deeds))) :
    Reflects start (s.loads start (requests deeds)) ((requests deeds).map (s.view start))
      (s.visit start deeds) := by
  have hnew : Reflects start (s.loads start (requests deeds)) [] { world := s.start start } :=
    ⟨⟨.refl start, fun _ _ hfound => (nomatch hfound)⟩, .nil⟩
  exact reflects_foldl hsteady hapart
    (fun request hrequest p hp => ⟨request, hrequest, hp⟩) hnew

/-- Two images cannot be told apart: header and metadata are the same, and so is every rectangle
inside, or it is refused for both. -/
structure SeenAlike (w w' : World) (image image' : Image LoadId) : Prop where
  header : image.header = image'.header
  metadata : image.metadata = image'.metadata
  pixels : ∀ r : Rect, r.fits image.header = true →
    (w.fetch image r).1.toOption = (w'.fetch image' r).1.toOption

/-- Images that depict one view cannot be told apart. -/
theorem seenAlike_of_depicts {w w' : World} {view : View} {image image' : Image LoadId}
    (hw : w.host.Resembles start) (hw' : w'.host.Resembles start)
    (h : w.Depicts start view image) (h' : w'.Depicts start view image') :
    SeenAlike w w' image image' := by
  obtain ⟨id, identity, rfl, hpresents⟩ := h
  obtain ⟨id', identity', rfl, hpresents'⟩ := h'
  refine ⟨rfl, rfl, fun r hfit => ?_⟩
  obtain ⟨-, hread⟩ := World.fetch_presents hw hpresents identity r
  obtain ⟨-, hread'⟩ := World.fetch_presents hw' hpresents' identity' r
  rcases hread hfit with ⟨hnone, e, herror⟩ | ⟨picture, bytes, hsome, hbytes, hok⟩
  · rcases hread' hfit with ⟨-, e', herror'⟩ | ⟨_, _, hsome', -⟩
    · rw [herror, herror']
      rfl
    · rw [hnone] at hsome'
      cases hsome'
  · rcases hread' hfit with ⟨hnone', -⟩ | ⟨picture', bytes', hsome', hbytes', hok'⟩
    · rw [hnone'] at hsome
      cases hsome
    · obtain rfl := Option.some.inj (hsome.symm.trans hsome')
      rw [hok, hok', ← hbytes, hbytes']

/-- Answers that depict the same views cannot be told apart. -/
theorem forall₂_seenAlike {w w' : World} (hw : w.host.Resembles start)
    (hw' : w'.host.Resembles start) :
    ∀ {views : List (Except Error View)} {answers answers' : List (Except Error (Image LoadId))},
      List.Forall₂ (Agree (w.Depicts start)) views answers →
        List.Forall₂ (Agree (w'.Depicts start)) views answers' →
          List.Forall₂ (Agree (SeenAlike w w')) answers answers'
  | _, _, _, .nil, .nil => .nil
  | _, _, _, .cons h hrest, .cons h' hrest' =>
    .cons (h.common h' fun _ _ _ => seenAlike_of_depicts hw hw')
      (forall₂_seenAlike hw hw' hrest hrest')

/-- **The cache is not seen.**  A client makes requests of a session, in whatever order, and fetches
rectangles of its images in between; loaders are steady, the host goes on showing the same, and
requests with one key come down to the same load. Then, whatever the cache may hold, each request
fails with the same error as without a cache, or both times there is an image of the same header and
metadata, and every rectangle inside has the same pixels or is refused for both. This is so at any
moment, as a visit may end anywhere. Where loaders decode what they announce, none is refused. -/
theorem visit_uncached (s : Session) (start : Host) (deeds : List Deed)
    (hsteady : ∀ entry ∈ s.registry.loaders, entry.loader.Steady start)
    (hapart : LoadPlan.KeysApart (s.loads start (requests deeds))) :
    let cached := s.visit start deeds
    let uncached := s.uncached.visit start deeds
    List.Forall₂ (Agree (SeenAlike cached.world uncached.world)) cached.answers uncached.answers ∧
      ((∀ entry ∈ s.registry.loaders, entry.loader.KeepsWord start) →
        ∀ image, .ok image ∈ cached.answers → ∀ r : Rect, r.fits image.header = true →
          ∃ bytes, (cached.world.fetch image r).1 = .ok bytes) := by
  intro cached uncached
  have hcached := reflects_visit hsteady hapart
  have huncached := reflects_visit (s := s.uncached) hsteady hapart
  refine ⟨forall₂_seenAlike hcached.consistent.host huncached.consistent.host hcached.answers
    huncached.answers, fun hkeeps image himage r hfit => ?_⟩
  obtain ⟨n, hn⟩ := List.getElem?_of_mem himage
  obtain ⟨view, hview, id, identity, rfl, hpresents⟩ := hcached.exists_view hn
  obtain ⟨request, hrequest, hview⟩ := List.mem_map.1 hview
  obtain ⟨p, hplan, hview⟩ := bind_eq_ok.1 hview
  obtain ⟨picture, hpicture⟩ :=
    p.exists_picture (hkeeps _ (mem_loaders_of_plan hsteady hplan)) hview
  obtain ⟨-, hread⟩ := World.fetch_presents hcached.consistent.host hpresents identity r
  rcases hread hfit with ⟨hnone, -⟩ | ⟨_, bytes, -, -, hok⟩
  · rw [hnone] at hpicture
    cases hpicture
  · exact ⟨bytes, hok⟩

/-- Two buffers and a cache for one load. The second buffer is asked for three times: its load
drives the first one out, is shared, and is replaced as the client wants. Four requests make three
loads. -/
theorem visit_uncached_evicted :
    let h : Header :=
      { width := 1, height := 1, bands := 1, format := .uchar, interpretation := .bw }
    let first (input : Input) : UInt8 := ((input.readAll {}).1.toOption.getD []).headD 0
    let loader : Loader :=
      { isA := fun _ host => (.ok true, host)
        flags := fun _ host => ({}, host)
        header := fun _ host => { result := .ok { header := h }, host }
        decode := fun context host =>
          { result := .ok {
              header := h
              source := .direct { origin := 0 } fun _ r =>
                .ok (r.window h [first context.input]) }
            host } }
    let entry : LoaderEntry := { descriptor := .loader "first" .buffer, loader, number := 0 }
    let s : Session :=
      { registry := { loaders := [entry], savers := [] }
        config := { cache := { maxEntries := 1 } } }
    let deeds : List Deed :=
      [.load (.buffer [1] .empty), .load (.buffer [2] .empty), .fetch 1 ⟨0, 0, 1, 1⟩,
        .load (.buffer [2] .empty), .load (.buffer [2] (Fields.empty.insert "revalidate" "yes"))]
    let cached := s.visit {} deeds
    let uncached := s.uncached.visit {} deeds
    cached.world.operations.length = 3 ∧
      List.Forall₂ (Agree (SeenAlike cached.world uncached.world)) cached.answers
        uncached.answers ∧
      ∀ image, .ok image ∈ cached.answers → ∀ r : Rect, r.fits image.header = true →
        ∃ bytes, (cached.world.fetch image r).1 = .ok bytes := by
  intro h first loader entry s deeds cached uncached
  have hsteady : ∀ entry ∈ s.registry.loaders, entry.loader.Steady {} := by
    rintro _ (_ | ⟨_, ⟨⟩⟩)
    refine ⟨fun _ _ h => ⟨rfl, h⟩, fun _ _ h => ⟨rfl, h⟩, fun _ _ h => ⟨rfl, h⟩,
      fun _ _ h => ⟨rfl, h⟩, fun h => absurd h Bool.false_ne_true, fun context image himage => ?_⟩
    obtain rfl := Except.ok.inj himage
    exact ⟨[first context.input], ⟨fun r hfit => Image.fetchFrom_direct rfl hfit, rfl⟩, by simp⟩
  have hkeeps : ∀ entry ∈ s.registry.loaders, entry.loader.KeepsWord {} := by
    rintro _ (_ | ⟨_, ⟨⟩⟩) context info hinfo -
    obtain rfl := Except.ok.inj hinfo
    exact ⟨_, rfl, rfl⟩
  -- every request comes down to one of two loads, which have different keys
  let plan (byte : UInt8) (revalidate : Bool) : LoadPlan :=
    { entry, input := .buffer [byte], options := .empty, settings := { revalidate } }
  have hplans : ∀ request ∈ requests deeds, ∃ byte revalidate, (byte = 1 ∨ byte = 2) ∧
      s.plan {} request = .ok (plan byte revalidate) := by
    have hpicked : (entry.descriptor.io == .buffer && entry.descriptor.isDiscoverable) = true := by
      decide +kernel
    have hcandidates : s.registry.candidates .buffer = [entry] :=
      List.filter_cons_of_pos hpicked
    have hmake : ∀ bytes options, s.plan {} (.buffer bytes options)
        = LoadPlan.make {} (.buffer bytes) options entry := by
      intro bytes options
      simp only [Session.plan, LoadRequest.resolve, LoadRequest.find, Registry.findLoadInput,
        Input.kind, hcandidates]
      rfl
    have hplain : LoadSettings.take Fields.empty {} = .ok ({}, Fields.empty) := rfl
    have hagain : LoadSettings.take (Fields.empty.insert "revalidate" "yes") {}
        = .ok ({ revalidate := true }, Fields.empty) := rfl
    have hrequests : requests deeds = [.buffer [1] .empty, .buffer [2] .empty,
        .buffer [2] .empty, .buffer [2] (Fields.empty.insert "revalidate" "yes")] := rfl
    simp only [hrequests, List.forall_mem_cons, hmake, LoadPlan.make, hplain, hagain]
    exact ⟨⟨1, false, .inl rfl, rfl⟩, ⟨2, false, .inr rfl, rfl⟩, ⟨2, false, .inr rfl, rfl⟩,
      ⟨2, true, .inr rfl, rfl⟩, fun _ h => absurd h List.not_mem_nil⟩
  have hkeys : (plan 1 false).key ≠ (plan 2 false).key := by decide +kernel
  have hapart : LoadPlan.KeysApart (s.loads {} (requests deeds)) := by
    rintro p q key ⟨a, ha, hp⟩ ⟨b, hb, hq⟩ hpkey hqkey
    obtain ⟨byte, revalidate, hbyte, hplan⟩ := hplans a ha
    obtain ⟨byte', revalidate', hbyte', hplan'⟩ := hplans b hb
    obtain rfl := Except.ok.inj (hp.symm.trans hplan)
    obtain rfl := Except.ok.inj (hq.symm.trans hplan')
    have hsame : (plan byte false).key = (plan byte' false).key := hpkey.trans hqkey.symm
    rcases hbyte with rfl | rfl <;> rcases hbyte' with rfl | rfl
    · rfl
    · exact absurd hsame hkeys
    · exact absurd hsame.symm hkeys
    · rfl
  obtain ⟨hanswers, hread⟩ := visit_uncached s {} deeds hsteady hapart
  exact ⟨by decide +kernel, hanswers, hread hkeeps⟩

end Session

end Raster
