import CyberControl.Profiling
import CyberControl.Transition
import CyberControl.Versions

/-! # Ingestion of behaviour events

`rebuild_profile` of `domains/topic2/orchestrator.py` with the rows behind it, for one learner and
course.  A rebuild reads the latest profile, lists a page of the events after its cursor, and saves
what the engine builds of them when no other profile has been saved since; events are recorded, and
other rebuilds run, between any two of these steps. -/

namespace CyberControl.Profiling

open Scheduling Transition Versions

/-! ### Rows -/

/-- `list_behavior_events` of one learner and course. -/
def listBehaviorEvents (events : List BehaviorEvent) (cursor : Option Cursor) (limit : ℕ) :
    List BehaviorEvent :=
  (sortBy (fun event => toLex (event.occurredAt, event.eventId))
    (events.filter (receivedAfter cursor))).take limit

def latestProfile (profiles : List Profile) : Option Profile :=
  latestVersion (·.profileVersion) profiles

/-- `_validate_profile_version`. -/
def validProfileVersion (profile : Profile) (latest : Option Profile) : Prop :=
  Follows (·.profileVersion) (·.profileId) (·.parentProfileId) profile latest

instance (profile : Profile) (latest : Option Profile) :
    Decidable (validProfileVersion profile latest) :=
  inferInstanceAs (Decidable (Follows _ _ _ _ _))

def profileCursor (profile : Option Profile) : Option Cursor := profile.bind (·.ingestionCursor)

/-- The blank profile of `initialize_learner`. -/
def blankProfile (profileId : ℕ) (learnerRef courseId : String) (generatedAt : ℕ) : Profile where
  profileId := profileId
  learnerRef := learnerRef
  courseId := courseId
  profileVersion := 1
  parentProfileId := none
  activityCount := 0
  ingestionCursor := none
  frozenAt := generatedAt
  features := []

/-! ### Rebuilds -/

/-- A call of `rebuild_profile`: `committed` are the events there when it began, `page` is none until
they are listed. -/
structure Rebuild where
  generatedAt : ℕ
  previous : Option Profile
  committed : List BehaviorEvent
  page : Option (List BehaviorEvent)

/-- A call of `build_profile` with the profile it led to, none when the build or the save failed. -/
structure Build where
  generatedAt : ℕ
  committed : List BehaviorEvent
  input : List BehaviorEvent
  saved : Option Profile

/-- `builds` is the history of the calls of `build_profile`, newest first. -/
structure Rows where
  events : List BehaviorEvent
  profiles : List Profile
  rebuilds : List Rebuild
  builds : List Build

def Rows.empty : Rows := ⟨[], [], [], []⟩

inductive Action where
  | record (event : BehaviorEvent)
  | initializeLearner (profileId generatedAt : ℕ)
  | begin (generatedAt : ℕ)
  | list (t : ℕ)
  | save (t profileId : ℕ) (graph : CourseGraph)
  | abandon (t : ℕ)

variable (robustBounds : RobustBounds) (learnerRef courseId : String)

/-- The profile that a rebuild builds of its page, when it is valid and the version is not stale. -/
def savedProfile (profiles : List Profile) (rebuild : Rebuild) (page : List BehaviorEvent)
    (profileId : ℕ) (graph : CourseGraph) : Option Profile :=
  (buildProfile robustBounds profileId learnerRef courseId page graph rebuild.generatedAt
    rebuild.previous).toOption.filter fun profile =>
      validProfileVersion profile (latestProfile profiles)

/-- `build_profile` and `save_profile`. -/
def Rows.save (s : Rows) (t : ℕ) (rebuild : Rebuild) (page : List BehaviorEvent) (profileId : ℕ)
    (graph : CourseGraph) : Rows :=
  let saved := savedProfile robustBounds learnerRef courseId s.profiles rebuild page profileId graph
  { s with
    profiles := saved.toList ++ s.profiles
    rebuilds := s.rebuilds.eraseIdx t
    builds := ⟨rebuild.generatedAt, rebuild.committed, page, saved⟩ :: s.builds }

def step (s : Rows) : Action → Option Rows
  | .record event =>
    if event.learnerRef = learnerRef ∧ event.courseId = courseId ∧
        event.eventId ∉ s.events.map (·.eventId) then
      some { s with events := s.events ++ [event] }
    else none
  | .initializeLearner profileId generatedAt =>
    if latestProfile s.profiles = none then
      some { s with profiles := blankProfile profileId learnerRef courseId generatedAt :: s.profiles }
    else none
  | .begin generatedAt =>
    some { s with
      rebuilds := s.rebuilds ++ [⟨generatedAt, latestProfile s.profiles, s.events, none⟩] }
  | .list t =>
    s.rebuilds[t]?.bind fun rebuild =>
      if rebuild.page = none then
        some { s with rebuilds := s.rebuilds.set t { rebuild with
          page := some (listBehaviorEvents s.events (profileCursor rebuild.previous)
            maxProfileEvents) } }
      else none
  | .save t profileId graph =>
    s.rebuilds[t]?.bind fun rebuild => rebuild.page.map fun page =>
      s.save robustBounds learnerRef courseId t rebuild page profileId graph
  | .abandon t => some { s with rebuilds := s.rebuilds.eraseIdx t }

/-! ### What the cursor is for -/

/-- The events that the saved profiles have counted. -/
def counted (builds : List Build) : List BehaviorEvent :=
  (builds.filter (·.saved.isSome)).flatMap fun build =>
    filterOutliers robustBounds build.input build.generatedAt

/-- The activity count of a saved profile is the number of events counted up to it, each once. -/
def NothingCountedTwice (s : Rows) : Prop :=
  ∀ build earlier, build :: earlier <:+ s.builds → ∀ profile ∈ build.saved,
    ((counted robustBounds (build :: earlier)).map (·.eventId)).Nodup ∧
      profile.activityCount = (counted robustBounds (build :: earlier)).length

/-- An event that was there when a rebuild began, and is not after the cursor that it saved, was in
its input or in that of an earlier build. -/
def NothingSkipped (s : Rows) : Prop :=
  ∀ build earlier, build :: earlier <:+ s.builds → ∀ profile ∈ build.saved,
    ∀ cursor ∈ profile.ingestionCursor, ∀ event ∈ build.committed, event.cursor ≤ cursor →
      ∃ b ∈ build :: earlier, event ∈ b.input

/-- A rebuild that lists `page` may still save: its profile is the latest one, and its page has no
event from after its time. -/
def Rebuild.Current (s : Rows) (rebuild : Rebuild) (page : List BehaviorEvent) : Prop :=
  rebuild.previous = latestProfile s.profiles ∧
    ∀ event ∈ page, event.occurredAt ≤ rebuild.generatedAt

instance (s : Rows) (rebuild : Rebuild) (page : List BehaviorEvent) :
    Decidable (rebuild.Current s page) :=
  inferInstanceAs (Decidable (_ ∧ _))

/-- The event comes after those that a rebuild counts of its page. -/
def Rebuild.Before (rebuild : Rebuild) (page : List BehaviorEvent) (event : BehaviorEvent) : Prop :=
  ∀ accepted ∈ filterOutliers robustBounds page rebuild.generatedAt, accepted.cursor < event.cursor

instance (rebuild : Rebuild) (page : List BehaviorEvent) :
    DecidablePred (rebuild.Before robustBounds page) :=
  fun _ => inferInstanceAs (Decidable (∀ _ ∈ _, _))

/-- An event commits after the cursor of the latest profile and after what the rebuilds under way
count; what a page leaves out of the backlog comes after what it counts. -/
def InOrder (s : Rows) : Action → Prop
  | .record event =>
    (∀ cursor ∈ profileCursor (latestProfile s.profiles), cursor < event.cursor) ∧
      ∀ rebuild ∈ s.rebuilds, ∀ page ∈ rebuild.page, rebuild.Current s page →
        rebuild.Before robustBounds page event
  | .list t =>
    ∀ rebuild ∈ s.rebuilds[t]?,
      let page := listBehaviorEvents s.events (profileCursor rebuild.previous) maxProfileEvents
      rebuild.Current s page → ∀ event ∈ s.events,
        receivedAfter (profileCursor rebuild.previous) event → event ∉ page →
          rebuild.Before robustBounds page event
  | _ => True

/-! ### Cursors -/

section cursors
variable {robustBounds learnerRef courseId}

theorem mem_of_mem_list {events : List BehaviorEvent} {cursor : Option Cursor} {limit : ℕ}
    {event : BehaviorEvent} (h : event ∈ listBehaviorEvents events cursor limit) :
    event ∈ events ∧ receivedAfter cursor event := by
  unfold listBehaviorEvents at h
  have hmem := List.mem_of_mem_take h
  simpa only [mem_sortBy, List.mem_filter, decide_eq_true_eq] using hmem

theorem nodup_list {events : List BehaviorEvent} (h : (events.map (·.eventId)).Nodup)
    (cursor : Option Cursor) (limit : ℕ) :
    ((listBehaviorEvents events cursor limit).map (·.eventId)).Nodup := by
  unfold listBehaviorEvents
  refine List.Nodup.sublist ((List.take_sublist _ _).map _) ?_
  refine (perm_sortBy.map _).nodup_iff.mpr ?_
  exact h.sublist (List.filter_sublist.map _)

theorem mem_nextCursor {previous : Option Cursor} {accepted : List BehaviorEvent} {c : Cursor}
    (h : c ∈ nextCursor previous accepted) :
    c ∈ previous ∨ ∃ event ∈ accepted, event.cursor = c := by
  have hmem := List.max?_mem h
  simp only [List.mem_append, Option.mem_toList] at hmem
  cases hmem with
  | inl hprevious => exact .inl hprevious
  | inr haccepted => exact .inr (List.mem_map.mp (List.max?_mem haccepted))

theorem exists_nextCursor_ge {previous : Option Cursor} {accepted : List BehaviorEvent} {c : Cursor}
    (h : c ∈ previous ∨ ∃ event ∈ accepted, event.cursor = c) :
    ∃ next ∈ nextCursor previous accepted, c ≤ next := by
  have hmem : ∃ d ∈ previous.toList ++ (accepted.map (·.cursor)).max?.toList, c ≤ d := by
    cases h with
    | inl hprevious =>
      refine ⟨c, ?_, le_rfl⟩
      rw [List.mem_append, Option.mem_toList]
      exact .inl hprevious
    | inr haccepted =>
      have hc : c ∈ accepted.map (·.cursor) := List.mem_map.mpr haccepted
      obtain ⟨top, htop⟩ := Option.ne_none_iff_exists'.mp
        (mt List.max?_eq_none_iff.mp (List.ne_nil_of_mem hc))
      refine ⟨top, ?_, (List.max?_le_iff htop).mp le_rfl c hc⟩
      rw [List.mem_append, Option.mem_toList, Option.mem_toList]
      exact .inr htop
  obtain ⟨d, hd, hle⟩ := hmem
  obtain ⟨next, hnext⟩ := Option.ne_none_iff_exists'.mp
    (mt List.max?_eq_none_iff.mp (List.ne_nil_of_mem hd))
  exact ⟨next, hnext, hle.trans ((List.max?_le_iff hnext).mp le_rfl d hd)⟩

/-! ### Saved profiles -/

variable {profiles : List Profile} {rebuild : Rebuild} {page : List BehaviorEvent} {profileId : ℕ}
  {graph : CourseGraph} {profile : Profile}

/-- **A saved profile** is built of the page and the latest profile, and replaces that one. -/
theorem savedProfile_eq_some (hversions : (profiles.map (·.profileVersion)).Nodup)
    (hprevious : ∀ p ∈ rebuild.previous, p ∈ profiles)
    (h : savedProfile robustBounds learnerRef courseId profiles rebuild page profileId graph
      = some profile) :
    buildProfile robustBounds profileId learnerRef courseId page graph rebuild.generatedAt
        rebuild.previous = .ok profile ∧
      rebuild.previous = latestProfile profiles ∧
      profile.profileVersion ∉ profiles.map (·.profileVersion) ∧
      latestProfile (profile :: profiles) = some profile := by
  obtain ⟨hbuild, hvalid⟩ := Option.filter_eq_some_iff.mp h
  have hok := eq_ok_of_toOption hbuild
  obtain ⟨-, hversion, hparent, -⟩ := buildProfile_ok hok
  rw [decide_eq_true_eq] at hvalid
  obtain ⟨hlatest, hfresh, hnew⟩ := hvalid.eq_latest hversions hprevious hversion hparent
  exact ⟨hok, hlatest, hfresh, hnew⟩

/-! ### Invariants -/

variable {t : ℕ} {s : Rows}

theorem save_of_none
    (h : savedProfile robustBounds learnerRef courseId s.profiles rebuild page profileId graph = none) :
    s.save robustBounds learnerRef courseId t rebuild page profileId graph = { s with
      rebuilds := s.rebuilds.eraseIdx t
      builds := ⟨rebuild.generatedAt, rebuild.committed, page, none⟩ :: s.builds } := by
  simp only [Rows.save, h, Option.toList_none, List.nil_append]

theorem save_of_some
    (h : savedProfile robustBounds learnerRef courseId s.profiles rebuild page profileId graph
      = some profile) :
    s.save robustBounds learnerRef courseId t rebuild page profileId graph = { s with
      profiles := profile :: s.profiles
      rebuilds := s.rebuilds.eraseIdx t
      builds := ⟨rebuild.generatedAt, rebuild.committed, page, some profile⟩ :: s.builds } := by
  simp only [Rows.save, h, Option.toList_some, List.singleton_append]

theorem counted_cons_none (generatedAt : ℕ) (committed : List BehaviorEvent) (builds : List Build) :
    counted robustBounds (⟨generatedAt, committed, page, none⟩ :: builds)
      = counted robustBounds builds := by
  simp [counted]

theorem counted_cons_some (generatedAt : ℕ) (committed : List BehaviorEvent) (builds : List Build) :
    counted robustBounds (⟨generatedAt, committed, page, some profile⟩ :: builds)
      = filterOutliers robustBounds page generatedAt ++ counted robustBounds builds := by
  simp [counted]

/-- What a rebuild under way has read. -/
structure Rebuild.Sound (s : Rows) (rebuild : Rebuild) : Prop where
  previous : ∀ profile ∈ rebuild.previous, profile ∈ s.profiles
  committed : rebuild.committed ⊆ s.events
  page : ∀ page ∈ rebuild.page, page ⊆ s.events ∧ (page.map (·.eventId)).Nodup ∧
    ∀ event ∈ page, receivedAfter (profileCursor rebuild.previous) event

/-- The latest profile has counted these events, and its cursor is not before any of them. -/
structure Tally (latest : Option Profile) (events : List BehaviorEvent) : Prop where
  nodup : (events.map (·.eventId)).Nodup
  count : latest.elim 0 (·.activityCount) = events.length
  cursor : ∀ event ∈ events, ∃ c ∈ profileCursor latest, event.cursor ≤ c

variable (robustBounds) in
structure Inv (s : Rows) : Prop where
  ids : (s.events.map (·.eventId)).Nodup
  versions : (s.profiles.map (·.profileVersion)).Nodup
  rebuilds : ∀ r ∈ s.rebuilds, r.Sound s
  counted : counted robustBounds s.builds ⊆ s.events
  tally : Tally (latestProfile s.profiles) (Profiling.counted robustBounds s.builds)

variable {s s' : Rows}

theorem Rebuild.Sound.mono {r : Rebuild} (h : r.Sound s) (hevents : s.events ⊆ s'.events)
    (hprofiles : s.profiles ⊆ s'.profiles) : r.Sound s' where
  previous := fun p hp => hprofiles (h.previous p hp)
  committed := List.Subset.trans h.committed hevents
  page := fun page hpage => ⟨List.Subset.trans (h.page page hpage).1 hevents,
    (h.page page hpage).2⟩

/-- A build of a page after the cursor adds its accepted events to the tally. -/
theorem Tally.build {latest : Option Profile} {events earlier : List BehaviorEvent}
    {generatedAt : ℕ} (h : Tally latest earlier) (hids : (events.map (·.eventId)).Nodup)
    (hearlier : earlier ⊆ events) (hpage : page ⊆ events) (hnodup : (page.map (·.eventId)).Nodup)
    (hafter : ∀ event ∈ page, receivedAfter (profileCursor latest) event)
    (hbuild : buildProfile robustBounds profileId learnerRef courseId page graph generatedAt latest
      = .ok profile) :
    Tally (some profile) (filterOutliers robustBounds page generatedAt ++ earlier) := by
  obtain ⟨-, -, -, hcount, hcursor, -⟩ := buildProfile_ok hbuild
  refine ⟨?_, ?_, ?_⟩
  · rw [List.map_append, List.nodup_append']
    refine ⟨nodup_filterOutliers _ hnodup, h.nodup, ?_⟩
    intro id hid hid'
    obtain ⟨event, hevent, rfl⟩ := List.mem_map.mp hid
    obtain ⟨other, hother, heq⟩ := List.mem_map.mp hid'
    have hin := mem_of_mem_filterOutliers hevent
    have hsame := List.inj_on_of_nodup_map hids (hearlier hother) (hpage hin) heq
    obtain ⟨c, hc, hle⟩ := h.cursor other hother
    have hlt := receivedAfter_iff.mp (hafter event hin) c hc
    rw [hsame] at hle
    exact absurd hlt (not_lt.mpr hle)
  · rw [Option.elim_some, hcount, h.count, List.length_append, Nat.add_comm]
  · intro event hevent
    have hnext : ∀ c, (c ∈ latest.bind (·.ingestionCursor) ∨
        ∃ e ∈ filterOutliers robustBounds page generatedAt, e.cursor = c) →
          ∃ next ∈ profileCursor (some profile), c ≤ next := by
      intro c hc
      obtain ⟨next, hnext, hle⟩ := exists_nextCursor_ge hc
      exact ⟨next, hcursor.trans hnext, hle⟩
    cases List.mem_append.mp hevent with
    | inl haccepted => exact hnext event.cursor (.inr ⟨event, haccepted, rfl⟩)
    | inr hcounted =>
      obtain ⟨c, hc, hle⟩ := h.cursor event hcounted
      obtain ⟨next, hnext, hle'⟩ := hnext c (.inl hc)
      exact ⟨next, hnext, hle.trans hle'⟩

theorem Inv.save (hinv : Inv robustBounds s) (ht : s.rebuilds[t]? = some rebuild)
    (hpage : rebuild.page = some page) :
    Inv robustBounds (s.save robustBounds learnerRef courseId t rebuild page profileId graph) := by
  have hsound := hinv.rebuilds rebuild (List.mem_of_getElem? ht)
  obtain ⟨hevents, hnodup, hafter⟩ := hsound.page page hpage
  have hold : ∀ r ∈ s.rebuilds.eraseIdx t, r.Sound s := by
    intro r hr
    exact hinv.rebuilds r (List.mem_of_mem_eraseIdx hr)
  cases hsaved : savedProfile robustBounds learnerRef courseId s.profiles rebuild page profileId
      graph with
  | none =>
    rw [save_of_none hsaved]
    refine ⟨hinv.ids, hinv.versions, ?_, ?_, ?_⟩
    · exact fun r hr => (hold r hr).mono (List.Subset.refl _) (List.Subset.refl _)
    · rw [counted_cons_none]
      exact hinv.counted
    · rw [counted_cons_none]
      exact hinv.tally
  | some profile =>
    obtain ⟨hbuild, hlatest, hfresh, hnew⟩ :=
      savedProfile_eq_some hinv.versions hsound.previous hsaved
    rw [hlatest] at hbuild hafter
    rw [save_of_some hsaved]
    refine ⟨hinv.ids, List.nodup_cons.mpr ⟨hfresh, hinv.versions⟩, ?_, ?_, ?_⟩
    · exact fun r hr => (hold r hr).mono (List.Subset.refl _) (List.subset_cons_self _ _)
    · rw [counted_cons_some]
      intro event hevent
      cases List.mem_append.mp hevent with
      | inl haccepted => exact hevents (mem_of_mem_filterOutliers haccepted)
      | inr hcounted => exact hinv.counted hcounted
    · rw [counted_cons_some, hnew]
      exact hinv.tally.build hinv.ids hinv.counted hevents hnodup hafter hbuild

theorem inv_step (s : Rows) (action : Action) (s' : Rows) (hinv : Inv robustBounds s)
    (h : step robustBounds learnerRef courseId s action = some s') : Inv robustBounds s' := by
  cases action with
  | record event =>
    obtain ⟨⟨-, -, hfresh⟩, rfl⟩ := guarded_eq_some.mp h
    have hsub := List.subset_append_left s.events [event]
    refine ⟨?_, hinv.versions, ?_, fun e he => hsub (hinv.counted he), hinv.tally⟩
    · rw [List.map_append, List.nodup_append']
      refine ⟨hinv.ids, List.nodup_singleton _, ?_⟩
      intro id hid hid'
      obtain rfl := List.mem_singleton.mp hid'
      exact hfresh hid
    · intro r hr
      exact (hinv.rebuilds r hr).mono hsub (List.Subset.refl _)
  | initializeLearner profileId generatedAt =>
    obtain ⟨hnone, rfl⟩ := guarded_eq_some.mp h
    have hnil := latestVersion_eq_none.mp hnone
    refine ⟨hinv.ids, ?_, ?_, hinv.counted, ?_⟩
    · simp [hnil]
    · intro r hr
      exact (hinv.rebuilds r hr).mono (List.Subset.refl _) (List.subset_cons_self _ _)
    · have htally := hinv.tally
      rw [hnone] at htally
      have hempty := List.eq_nil_of_length_eq_zero htally.count.symm
      refine ⟨htally.nodup, ?_, ?_⟩
      · rw [hempty, hnil]
        rfl
      · rw [hempty]
        simp
  | begin generatedAt =>
    obtain rfl := Option.some.inj h
    refine ⟨hinv.ids, hinv.versions, ?_, hinv.counted, hinv.tally⟩
    intro r hr
    cases List.mem_append.mp hr with
    | inl hold => exact (hinv.rebuilds r hold).mono (List.Subset.refl _) (List.Subset.refl _)
    | inr hnew =>
      obtain rfl := List.mem_singleton.mp hnew
      exact ⟨fun p hp => latestVersion_mem hp, List.Subset.refl _, by simp⟩
  | list t =>
    obtain ⟨rebuild, ht, h⟩ := Option.bind_eq_some_iff.mp h
    obtain ⟨-, rfl⟩ := guarded_eq_some.mp h
    have hsound := hinv.rebuilds rebuild (List.mem_of_getElem? ht)
    refine ⟨hinv.ids, hinv.versions, ?_, hinv.counted, hinv.tally⟩
    intro r hr
    cases List.mem_or_eq_of_mem_set hr with
    | inl hold => exact (hinv.rebuilds r hold).mono (List.Subset.refl _) (List.Subset.refl _)
    | inr hnew =>
      subst hnew
      refine ⟨hsound.previous, hsound.committed, ?_⟩
      rintro page ⟨⟩
      exact ⟨fun e he => (mem_of_mem_list he).1, nodup_list hinv.ids _ _,
        fun e he => (mem_of_mem_list he).2⟩
  | save t profileId graph =>
    obtain ⟨rebuild, ht, h⟩ := Option.bind_eq_some_iff.mp h
    obtain ⟨page, hpage, rfl⟩ := Option.map_eq_some_iff.mp h
    exact hinv.save ht hpage
  | abandon t =>
    obtain rfl := Option.some.inj h
    refine ⟨hinv.ids, hinv.versions, ?_, hinv.counted, hinv.tally⟩
    intro r hr
    have hold := hinv.rebuilds r (List.mem_of_mem_eraseIdx hr)
    exact hold.mono (List.Subset.refl _) (List.Subset.refl _)

/-! ### No event is counted twice -/

variable {action : Action}

theorem builds_step (h : step robustBounds learnerRef courseId s action = some s') :
    s'.builds = s.builds ∨ ∃ t rebuild page profileId graph, s.rebuilds[t]? = some rebuild ∧
      rebuild.page = some page ∧
      s' = s.save robustBounds learnerRef courseId t rebuild page profileId graph := by
  cases action with
  | record event =>
    obtain ⟨-, rfl⟩ := guarded_eq_some.mp h
    exact .inl rfl
  | initializeLearner profileId generatedAt =>
    obtain ⟨-, rfl⟩ := guarded_eq_some.mp h
    exact .inl rfl
  | begin generatedAt =>
    obtain rfl := Option.some.inj h
    exact .inl rfl
  | list t =>
    obtain ⟨rebuild, -, h⟩ := Option.bind_eq_some_iff.mp h
    obtain ⟨-, rfl⟩ := guarded_eq_some.mp h
    exact .inl rfl
  | save t profileId graph =>
    obtain ⟨rebuild, ht, h⟩ := Option.bind_eq_some_iff.mp h
    obtain ⟨page, hpage, rfl⟩ := Option.map_eq_some_iff.mp h
    exact .inr ⟨t, rebuild, page, profileId, graph, ht, hpage, rfl⟩
  | abandon t =>
    obtain rfl := Option.some.inj h
    exact .inl rfl

theorem nothingCountedTwice_step (hinv : Inv robustBounds s)
    (hcounted : NothingCountedTwice robustBounds s)
    (h : step robustBounds learnerRef courseId s action = some s') :
    NothingCountedTwice robustBounds s' := by
  have hinv' := inv_step s action s' hinv h
  cases builds_step h with
  | inl hbuilds =>
    unfold NothingCountedTwice
    rw [hbuilds]
    exact hcounted
  | inr hsave =>
    obtain ⟨t, rebuild, page, profileId, graph, ht, hpage, rfl⟩ := hsave
    have hsound := hinv.rebuilds rebuild (List.mem_of_getElem? ht)
    intro build earlier hsuffix profile hprofile
    cases List.suffix_cons_iff.mp hsuffix with
    | inr hold => exact hcounted build earlier hold profile hprofile
    | inl hnew =>
      obtain ⟨rfl, rfl⟩ := List.cons.inj hnew
      obtain ⟨-, -, -, hlatest⟩ := savedProfile_eq_some hinv.versions hsound.previous hprofile
      have htally := hinv'.tally
      rw [save_of_some hprofile] at htally
      simp only [hlatest] at htally
      rw [show savedProfile robustBounds learnerRef courseId s.profiles rebuild page profileId
        graph = some profile from hprofile]
      exact ⟨htally.nodup, htally.count⟩

/-! ### No event is skipped -/

variable (robustBounds) in
/-- The events up to the latest cursor have been in some input, and those that a page leaves out come
after what it counts. -/
structure Covered (s : Rows) : Prop where
  behind : ∀ event ∈ s.events, ∀ cursor ∈ profileCursor (latestProfile s.profiles),
    event.cursor ≤ cursor → ∃ build ∈ s.builds, event ∈ build.input
  ahead : ∀ r ∈ s.rebuilds, ∀ page ∈ r.page, r.Current s page → ∀ event ∈ s.events,
    receivedAfter (profileCursor r.previous) event → event ∉ page → r.Before robustBounds page event

/-- The events up to the cursor of a profile about to be saved have been in some input. -/
theorem Covered.of_build (h : Covered robustBounds s) (hmem : rebuild ∈ s.rebuilds)
    (hpage : rebuild.page = some page) (hlatest : rebuild.previous = latestProfile s.profiles)
    (hbuild : buildProfile robustBounds profileId learnerRef courseId page graph rebuild.generatedAt
      rebuild.previous = .ok profile) {event : BehaviorEvent} (hevent : event ∈ s.events)
    {cursor : Cursor} (hcursor : cursor ∈ profile.ingestionCursor) (hle : event.cursor ≤ cursor) :
    event ∈ page ∨ ∃ build ∈ s.builds, event ∈ build.input := by
  by_cases hafter : receivedAfter (profileCursor rebuild.previous) event
  · left
    by_contra hout
    obtain ⟨-, -, -, -, hnext, -⟩ := buildProfile_ok hbuild
    have htimely : ∀ e ∈ page, e.occurredAt ≤ rebuild.generatedAt := by
      obtain ⟨_, hvalid, -⟩ := bind_eq_ok.mp hbuild
      exact validateInputs_ok hvalid
    have hbefore := h.ahead rebuild hmem page hpage ⟨hlatest, htimely⟩ event hevent hafter hout
    rw [hnext] at hcursor
    cases mem_nextCursor hcursor with
    | inl hprevious =>
      have hlt := receivedAfter_iff.mp hafter cursor hprevious
      exact absurd hlt (not_lt.mpr hle)
    | inr haccepted =>
      obtain ⟨accepted, haccepted, rfl⟩ := haccepted
      exact absurd (hbefore accepted haccepted) (not_lt.mpr hle)
  · right
    rw [receivedAfter_iff] at hafter
    push Not at hafter
    obtain ⟨c, hc, hle'⟩ := hafter
    rw [hlatest] at hc
    exact h.behind event hevent c hc hle'

theorem covered_save (hinv : Inv robustBounds s) (h : Covered robustBounds s)
    (ht : s.rebuilds[t]? = some rebuild) (hpage : rebuild.page = some page) :
    Covered robustBounds (s.save robustBounds learnerRef courseId t rebuild page profileId graph) := by
  have hmem := List.mem_of_getElem? ht
  have hsound := hinv.rebuilds rebuild hmem
  cases hsaved : savedProfile robustBounds learnerRef courseId s.profiles rebuild page profileId
      graph with
  | none =>
    rw [save_of_none hsaved]
    refine ⟨?_, ?_⟩
    · intro event hevent cursor hcursor hle
      obtain ⟨build, hbuild, hin⟩ := h.behind event hevent cursor hcursor hle
      exact ⟨build, List.mem_cons_of_mem _ hbuild, hin⟩
    · intro r hr
      exact h.ahead r (List.mem_of_mem_eraseIdx hr)
  | some profile =>
    obtain ⟨hbuild, hlatest, hfresh, hnew⟩ :=
      savedProfile_eq_some hinv.versions hsound.previous hsaved
    rw [save_of_some hsaved]
    refine ⟨?_, ?_⟩
    · intro event hevent cursor hcursor hle
      simp only [hnew] at hcursor
      cases h.of_build hmem hpage hlatest hbuild hevent hcursor hle with
      | inl hin => exact ⟨_, List.mem_cons_self, hin⟩
      | inr hearlier =>
        obtain ⟨build, hbuild, hin⟩ := hearlier
        exact ⟨build, List.mem_cons_of_mem _ hbuild, hin⟩
    · -- no other rebuild has read the profile that is saved here
      intro r hr other hother hcurrent
      have hprevious := hcurrent.1.trans hnew
      have hin := (hinv.rebuilds r (List.mem_of_mem_eraseIdx hr)).previous profile hprevious
      exact absurd (List.mem_map_of_mem hin) hfresh

theorem covered_step (hinv : Inv robustBounds s)
    (h : Covered robustBounds s) (horder : InOrder robustBounds s action)
    (hstep : step robustBounds learnerRef courseId s action = some s') : Covered robustBounds s' := by
  cases action with
  | record event =>
    obtain ⟨-, rfl⟩ := guarded_eq_some.mp hstep
    refine ⟨?_, ?_⟩
    · intro e he cursor hcursor hle
      cases List.mem_append.mp he with
      | inl hold => exact h.behind e hold cursor hcursor hle
      | inr hnew =>
        obtain rfl := List.mem_singleton.mp hnew
        exact absurd (horder.1 cursor hcursor) (not_lt.mpr hle)
    · intro r hr page hpage hcurrent e he hafter hout
      cases List.mem_append.mp he with
      | inl hold => exact h.ahead r hr page hpage hcurrent e hold hafter hout
      | inr hnew =>
        obtain rfl := List.mem_singleton.mp hnew
        exact horder.2 r hr page hpage hcurrent
  | initializeLearner profileId generatedAt =>
    obtain ⟨hnone, rfl⟩ := guarded_eq_some.mp hstep
    have hnil := latestVersion_eq_none.mp hnone
    have hlatest : latestProfile (blankProfile profileId learnerRef courseId generatedAt :: s.profiles)
        = some (blankProfile profileId learnerRef courseId generatedAt) := by
      rw [hnil]
      rfl
    refine ⟨?_, ?_⟩
    · intro e he cursor hcursor
      simp only [hlatest] at hcursor
      cases hcursor
    · intro r hr page hpage hcurrent
      have hin := (hinv.rebuilds r hr).previous _ (hcurrent.1.trans hlatest)
      rw [hnil] at hin
      cases hin
  | begin generatedAt =>
    obtain rfl := Option.some.inj hstep
    refine ⟨h.behind, ?_⟩
    intro r hr page hpage
    cases List.mem_append.mp hr with
    | inl hold => exact h.ahead r hold page hpage
    | inr hnew =>
      obtain rfl := List.mem_singleton.mp hnew
      cases hpage
  | list t =>
    obtain ⟨rebuild, ht, hstep⟩ := Option.bind_eq_some_iff.mp hstep
    obtain ⟨-, rfl⟩ := guarded_eq_some.mp hstep
    refine ⟨h.behind, ?_⟩
    intro r hr page hpage
    cases List.mem_or_eq_of_mem_set hr with
    | inl hold => exact h.ahead r hold page hpage
    | inr hnew =>
      subst hnew
      cases hpage
      exact horder rebuild ht
  | save t profileId graph =>
    obtain ⟨rebuild, ht, hstep⟩ := Option.bind_eq_some_iff.mp hstep
    obtain ⟨page, hpage, rfl⟩ := Option.map_eq_some_iff.mp hstep
    exact covered_save hinv h ht hpage
  | abandon t =>
    obtain rfl := Option.some.inj hstep
    refine ⟨h.behind, ?_⟩
    intro r hr
    exact h.ahead r (List.mem_of_mem_eraseIdx hr)

theorem nothingSkipped_step (hinv : Inv robustBounds s)
    (hcovered : Covered robustBounds s) (hskipped : NothingSkipped s)
    (h : step robustBounds learnerRef courseId s action = some s') : NothingSkipped s' := by
  cases builds_step h with
  | inl hbuilds =>
    unfold NothingSkipped
    rw [hbuilds]
    exact hskipped
  | inr hsave =>
    obtain ⟨t, rebuild, page, profileId, graph, ht, hpage, rfl⟩ := hsave
    have hmem := List.mem_of_getElem? ht
    have hsound := hinv.rebuilds rebuild hmem
    intro build earlier hsuffix profile hprofile cursor hcursor event hevent hle
    cases List.suffix_cons_iff.mp hsuffix with
    | inr hold => exact hskipped build earlier hold profile hprofile cursor hcursor event hevent hle
    | inl hnew =>
      obtain ⟨rfl, rfl⟩ := List.cons.inj hnew
      obtain ⟨hbuild, hlatest, -⟩ := savedProfile_eq_some hinv.versions hsound.previous hprofile
      cases hcovered.of_build hmem hpage hlatest hbuild (hsound.committed hevent) hcursor hle with
      | inl hin => exact ⟨_, List.mem_cons_self, hin⟩
      | inr hearlier =>
        obtain ⟨b, hb, hin⟩ := hearlier
        exact ⟨b, List.mem_cons_of_mem _ hb, hin⟩

end cursors

theorem inv_empty : Inv robustBounds Rows.empty where
  ids := List.nodup_nil
  versions := List.nodup_nil
  rebuilds := by simp [Rows.empty]
  counted := List.Subset.refl _
  tally := ⟨List.nodup_nil, rfl, by simp [Rows.empty, counted]⟩

theorem covered_empty : Covered robustBounds Rows.empty where
  behind := by simp [Rows.empty]
  ahead := by simp [Rows.empty]

instance (s : Rows) : DecidablePred (InOrder robustBounds s) := fun action =>
  match action with
  | .record _ => inferInstanceAs (Decidable (_ ∧ _))
  | .list _ => by
    unfold InOrder
    infer_instance
  | .initializeLearner _ _ => isTrue trivial
  | .begin _ => isTrue trivial
  | .save _ _ _ => isTrue trivial
  | .abandon _ => isTrue trivial

variable {s : Rows}

/-- **Ingestion.** In every run no event is counted twice; in a run where the events that commit late,
or that a page leaves out, come after those that the page counts, no event is skipped. -/
theorem ingests_in_order {actions : List Action}
    (h : run (step robustBounds learnerRef courseId) Rows.empty actions = some s) :
    NothingCountedTwice robustBounds s ∧
      (AllSteps (step robustBounds learnerRef courseId) (InOrder robustBounds) Rows.empty actions →
        NothingSkipped s) := by
  constructor
  · refine (run_invariant (I := fun s => Inv robustBounds s ∧ NothingCountedTwice robustBounds s) ?_ ?_
      h).2
    · intro s action s' hI hstep
      exact ⟨inv_step s action s' hI.1 hstep, nothingCountedTwice_step hI.1 hI.2 hstep⟩
    · refine ⟨inv_empty robustBounds, ?_⟩
      simp [NothingCountedTwice, Rows.empty]
  · intro horder
    refine (run_invariant_of (I := fun s => Inv robustBounds s ∧ Covered robustBounds s ∧
      NothingSkipped s) ?_ ?_ horder h).2.2
    · intro s action s' hI hin hstep
      exact ⟨inv_step s action s' hI.1 hstep, covered_step hI.1 hI.2.1 hin hstep,
        nothingSkipped_step hI.1 hI.2.1 hI.2.2 hstep⟩
    · refine ⟨inv_empty robustBounds, covered_empty robustBounds, ?_⟩
      simp [NothingSkipped, Rows.empty]

/-- A rebuild after each of two events. -/
def twoRebuilds : List Action :=
  [.record (answer 1 "KP_sum" 10 11), .begin 20, .list 0, .save 0 1 ⟨{"KP_sum"}, ∅⟩,
    .record (answer 2 "KP_sum" 30 31), .begin 40, .list 0, .save 0 2 ⟨{"KP_sum"}, ∅⟩]

theorem ingests_in_order_twoRebuilds :
    ∃ s, run (step noBounds "learner" "COURSE") Rows.empty twoRebuilds = some s ∧
      NothingCountedTwice noBounds s ∧ NothingSkipped s := by
  have hrun : (run (step noBounds "learner" "COURSE") Rows.empty twoRebuilds).isSome := by
    decide +kernel
  obtain ⟨s, hs⟩ := Option.isSome_iff_exists.mp hrun
  have hingests := ingests_in_order noBounds "learner" "COURSE" hs
  exact ⟨s, hs, hingests.1, hingests.2 (by decide +kernel)⟩

variable {robustBounds learnerRef courseId} in
/-- **The newest profile stands for all that was counted**: versions are distinct, each counted event was recorded
and is not after the cursor. -/
theorem newest_tallies {actions : List Action}
    (h : run (step robustBounds learnerRef courseId) Rows.empty actions = some s) :
    (s.profiles.map (·.profileVersion)).Nodup ∧ counted robustBounds s.builds ⊆ s.events ∧
      Tally (latestProfile s.profiles) (counted robustBounds s.builds) := by
  have hinv : Inv robustBounds s := run_invariant inv_step (inv_empty robustBounds) h
  exact ⟨hinv.versions, hinv.counted, hinv.tally⟩

theorem newest_tallies_twoRebuilds : ∃ s, run (step noBounds "learner" "COURSE") Rows.empty twoRebuilds = some s ∧
    (counted noBounds s.builds).length = 2 ∧ (s.profiles.map (·.profileVersion)).Nodup ∧
    counted noBounds s.builds ⊆ s.events ∧ Tally (latestProfile s.profiles) (counted noBounds s.builds) := by
  obtain ⟨s, hs, hlength⟩ := Option.map_eq_some_iff.mp
    (show (run (step noBounds "learner" "COURSE") Rows.empty twoRebuilds).map
      (fun s => (counted noBounds s.builds).length) = some 2 by decide +kernel)
  exact ⟨s, hs, hlength, newest_tallies hs⟩

/-! ### A backlog longer than a page -/

variable {robustBounds learnerRef courseId}

theorem run_record {events : List BehaviorEvent} (actions : List Action)
    (hscope : ∀ event ∈ events, event.learnerRef = learnerRef ∧ event.courseId = courseId)
    (hids : ((s.events ++ events).map (·.eventId)).Nodup) :
    run (step robustBounds learnerRef courseId) s (events.map .record ++ actions)
      = run (step robustBounds learnerRef courseId) { s with events := s.events ++ events } actions := by
  induction events generalizing s with
  | nil => simp
  | cons event events ih =>
    have hfresh : event.eventId ∉ s.events.map (·.eventId) := by
      rw [List.map_append, List.nodup_append'] at hids
      exact fun hmem => hids.2.2 hmem List.mem_cons_self
    obtain ⟨hlearner, hcourse⟩ := hscope event List.mem_cons_self
    have hstep : step robustBounds learnerRef courseId s (.record event)
        = some { s with events := s.events ++ [event] } :=
      if_pos ⟨hlearner, hcourse, hfresh⟩
    rw [List.map_cons, List.cons_append, run, hstep, Option.bind_some,
      ih (fun e he => hscope e (List.mem_cons_of_mem _ he)) (by simpa using hids)]
    simp

theorem savedProfile_first {generatedAt profileId : ℕ} {committed page : List BehaviorEvent}
    {graph : CourseGraph} (hlength : page.length ≤ maxProfileEvents)
    (hvalid : ∀ event ∈ page, event.learnerRef = learnerRef ∧ event.courseId = courseId ∧
      event.occurredAt ≤ generatedAt) :
    ∃ profile, savedProfile robustBounds learnerRef courseId []
        ⟨generatedAt, none, committed, some page⟩ page profileId graph = some profile ∧
      profile.ingestionCursor
        = nextCursor none (filterOutliers robustBounds page generatedAt) := by
  have hinputs : validateInputs learnerRef courseId page generatedAt none = .ok () := by
    unfold validateInputs
    rw [if_neg (by omega), if_neg (by simp), forM_eq_ok]
    intro event hevent
    obtain ⟨hlearner, hcourse, htime⟩ := hvalid event hevent
    unfold validateEvent
    rw [if_neg (by simp [hlearner, hcourse]), if_neg (by omega)]
  obtain ⟨profile, hok⟩ : ∃ profile, buildProfile robustBounds profileId learnerRef courseId page graph
      generatedAt none = .ok profile := by
    unfold buildProfile
    rw [hinputs]
    exact ⟨_, rfl⟩
  obtain ⟨-, hversion, hparent, -, hcursor, -⟩ := buildProfile_ok hok
  refine ⟨profile, ?_, hcursor⟩
  unfold savedProfile
  simp [hok, Except.toOption, latestProfile, validProfileVersion, follows_none, hversion, hparent]

/-- Answers received in the order they were given. -/
def timelyAnswers (n : ℕ) : List BehaviorEvent :=
  (List.range n).map fun i => answer i "KP_sum" i (i + 1)

/-- The answer given last, and received first. -/
def lastAnswer (n : ℕ) : BehaviorEvent := answer n "KP_sum" n 0

def backlog (n : ℕ) : List BehaviorEvent := timelyAnswers n ++ [lastAnswer n]

section backlog
variable {n : ℕ}

theorem list_backlog : listBehaviorEvents (backlog n) none n = timelyAnswers n := by
  have hall : (backlog n).filter (receivedAfter none) = backlog n := by
    simp [receivedAfter]
  have hsorted : sortBy (fun event => toLex (event.occurredAt, event.eventId)) (backlog n)
      = backlog n := by
    apply List.Pairwise.insertionSort_eq
    unfold backlog
    rw [List.pairwise_append]
    refine ⟨?_, List.pairwise_singleton _ _, ?_⟩
    · refine List.pairwise_map.mpr (List.pairwise_lt_range.imp fun hlt => ?_)
      exact Prod.Lex.le_iff.mpr (.inl hlt)
    · intro event hevent last hlast
      obtain ⟨i, hi, rfl⟩ := List.mem_map.mp hevent
      obtain rfl := List.mem_singleton.mp hlast
      exact Prod.Lex.le_iff.mpr (.inl (List.mem_range.mp hi))
  have hlength : (timelyAnswers n).length = n := by
    simp [timelyAnswers]
  unfold listBehaviorEvents
  rw [hall, hsorted, backlog, List.take_left' hlength]

theorem timelyAnswers_valid : ∀ event ∈ timelyAnswers n, event.learnerRef = "learner" ∧
    event.courseId = "COURSE" ∧ event.occurredAt ≤ n := by
  intro event hevent
  obtain ⟨i, hi, rfl⟩ := List.mem_map.mp hevent
  exact ⟨rfl, rfl, (List.mem_range.mp hi).le⟩

theorem lastAnswer_not_mem : lastAnswer n ∉ timelyAnswers n := by
  intro hmem
  obtain ⟨i, hi, heq⟩ := List.mem_map.mp hmem
  have hid : i = n := congrArg BehaviorEvent.eventId heq
  exact Nat.ne_of_lt (List.mem_range.mp hi) hid

theorem backlog_nodup : ((backlog n).map (·.eventId)).Nodup := by
  have heq : (backlog n).map (·.eventId) = List.range (n + 1) := by
    simp [backlog, timelyAnswers, lastAnswer, answer, List.range_succ, Function.comp_def]
  rw [heq]
  exact List.nodup_range

theorem backlog_scope : ∀ event ∈ backlog n,
    event.learnerRef = "learner" ∧ event.courseId = "COURSE" := by
  intro event hevent
  cases List.mem_append.mp hevent with
  | inl htimely => exact (timelyAnswers_valid event htimely).imp id And.left
  | inr hlast =>
    obtain rfl := List.mem_singleton.mp hlast
    exact ⟨rfl, rfl⟩

/-- The cursor of what the page counts is not before the event that it leaves out. -/
theorem lastAnswer_passed (hn : 0 < n) : ∃ cursor ∈ nextCursor none
    (filterOutliers noBounds (timelyAnswers n) n), (lastAnswer n).cursor ≤ cursor := by
  have hmem : answer 0 "KP_sum" 0 1 ∈ timelyAnswers n :=
    List.mem_map.mpr ⟨0, List.mem_range.mpr hn, rfl⟩
  have hfirst : answer 0 "KP_sum" 0 1 ∈ filterOutliers noBounds (timelyAnswers n) n := by
    simp only [filterOutliers, mem_sortBy, List.mem_filter, hmem, true_and, decide_eq_true_eq]
    exact ⟨Nat.zero_le _, by simp [answer], by simp [answer]⟩
  obtain ⟨cursor, hnext, hle⟩ := @exists_nextCursor_ge none _ _ (.inr ⟨_, hfirst, rfl⟩)
  refine ⟨cursor, hnext, le_trans ?_ hle⟩
  exact Prod.Lex.le_iff.mpr (.inl Nat.zero_lt_one)

def backlogRebuild (n : ℕ) : List Action :=
  (backlog n).map .record ++ [.begin n, .list 0, .save 0 1 ⟨{"KP_sum"}, ∅⟩]

theorem backlogRebuild_skips (hn : n = maxProfileEvents) :
    ∃ s, run (step noBounds "learner" "COURSE") Rows.empty (backlogRebuild n) = some s ∧
      ¬ NothingSkipped s := by
  have hlength : (timelyAnswers n).length ≤ maxProfileEvents := by
    simp [timelyAnswers, hn]
  obtain ⟨profile, hsaved, hcursor⟩ := @savedProfile_first noBounds "learner" "COURSE"
    n 1 (backlog n) (timelyAnswers n) ⟨{"KP_sum"}, ∅⟩ hlength timelyAnswers_valid
  have hpositive : 0 < n := by
    rw [hn]
    decide
  obtain ⟨cursor, hnext, hpassed⟩ := lastAnswer_passed hpositive
  rw [← hcursor] at hnext
  unfold backlogRebuild
  rw [@run_record _ _ _ Rows.empty _ _ backlog_scope backlog_nodup]
  simp only [run, step, Rows.empty, List.nil_append, Option.bind_some, List.getElem?_cons_zero,
    List.set_cons_zero, latestProfile, latestVersion_nil, profileCursor, Option.bind_none, ← hn,
    list_backlog, if_true, Option.map_some, Option.some.injEq, exists_eq_left']
  intro hskipped
  unfold Rows.save at hskipped
  simp only [hsaved] at hskipped
  obtain ⟨build, hbuild, hinput⟩ := hskipped _ [] (List.suffix_refl _) profile rfl cursor hnext
    (lastAnswer n) (List.mem_append_right _ (List.mem_singleton_self _)) hpassed
  rw [List.mem_singleton.mp hbuild] at hinput
  exact lastAnswer_not_mem hinput

end backlog

/-- The cursor passes the event that a page of a longer backlog has left out. -/
theorem backlog_event_skipped :
    ∃ s, run (step noBounds "learner" "COURSE") Rows.empty (backlogRebuild maxProfileEvents) = some s ∧
      ¬ NothingSkipped s :=
  backlogRebuild_skips rfl

end CyberControl.Profiling
