import ApmAgent.DiagnosticListeners.TracedSpans

/-! # Tracking spans exactly

  A listener tracks its spans exactly if its table holds the spans in flight in
  every state, every stop ends the span it is for and no other, and the table
  is empty when everything has stopped.

  `tracksExactly_iff`: there are two ways for a listener to fail, a start that
  loses its span and a stop that is missed.
-/

namespace ApmAgent

/-- The labels of a system with a listener. -/
inductive ListenerLabel (Event : Type) where
  | event (e : Event)
  | elsewhere (e : Elsewhere)

open ListenerState in
/-- What a step does to the spans; `loses` says that it starts a span and loses it. -/
inductive ListenerEffect {Key Data : Type} [DecidableEq Key] (isStart : Key → Prop)
    (loses : Prop) (s s' : ListenerState Key Data) : Prop where
  | quiet (h : Quiet s s') (hloses : ¬loses)
  | lose (h : Started s s') (hloses : loses)
  | put {key : Key} {data : Data} {s₁ : ListenerState Key Data} (hstart : isStart key)
      (h : Started s s₁) (hadd : s₁.tryAdd key s.tracer.spans.size data = some s')
      (hloses : ¬loses)
  | remove {key : Key} {k : SpanRef} (hkey : s.inFlight.table key = some k)
      (h : Ends s s' key k) (hloses : ¬loses)

theorem ListenerEffect.imp {Key Data : Type} [DecidableEq Key] {isStart isStart' : Key → Prop}
    {loses loses' : Prop} {s s' : ListenerState Key Data}
    (h : ListenerEffect isStart loses s s') (hstart : ∀ key, isStart key → isStart' key)
    (hloses : loses ↔ loses') : ListenerEffect isStart' loses' s s' := by
  rw [hloses] at h
  cases h with
  | quiet h hloses => exact .quiet h hloses
  | lose h hloses => exact .lose h hloses
  | put hkey h hadd hloses => exact .put (hstart _ hkey) h hadd hloses
  | remove hkey h hloses => exact .remove hkey h hloses

section

variable {State Key Data : Type} [DecidableEq Key] {spans : State → ListenerState Key Data}
  {s s' : State} {key : Key}

/-- The span of a key is ended and removed, and without a span nothing changes. -/
def EndsSpan (spans : State → ListenerState Key Data) (s s' : State) (key : Key) : Prop :=
  match (spans s).inFlight.table key with
  | none => s' = s
  | some k => ListenerState.Ends (spans s) (spans s') key k

omit [DecidableEq Key] in
theorem table_eq_none_iff {s : ListenerState Key Data} :
    s.inFlight.table key = none ↔ s.processing key = none :=
  Option.map_eq_none_iff

theorem endsSpan_of_tryRemove_eq_none (hremove : (spans s).tryRemove key = none) :
    EndsSpan spans s s key := by
  have htable := table_eq_none_iff.mpr (Option.map_eq_none_iff.mp hremove)
  unfold EndsSpan
  rw [htable]

theorem endsSpan_of_ends {s₁ : ListenerState Key Data} {span : SpanRef} {data : Data}
    (hremove : (spans s).tryRemove key = some (s₁, span, data))
    (h : ListenerState.Ends (spans s) (spans s') key span) : EndsSpan spans s s' key := by
  obtain ⟨item, hitem, hspan⟩ := Option.map_eq_some_iff.mp hremove
  cases hspan
  have htable : (spans s).inFlight.table key = some span := by
    show ((spans s).processing key).map (·.1) = some span
    rw [hitem]
    rfl
  unfold EndsSpan
  rw [htable]
  exact h

theorem EndsSpan.effect {isStart : Key → Prop} {loses : Prop} (h : EndsSpan spans s s' key)
    (hloses : ¬loses) : ListenerEffect isStart loses (spans s) (spans s') := by
  unfold EndsSpan at h
  rcases htable : (spans s).inFlight.table key with _ | k
  · rw [htable] at h
    exact .quiet (h ▸ .refl _) hloses
  · rw [htable] at h
    exact .remove htable h hloses

end

/-- A system with a listener, its start and stop events, and the ways it fails. -/
structure SpanListener (State Event Key Data : Type) [DecidableEq Key] where
  system : LTS.System State (ListenerLabel Event)
  spans : State → ListenerState Key Data
  isNew : ∀ s, system.init s → (spans s).IsNew
  isStart : ListenerLabel Event → Key → Prop
  isStop : ListenerLabel Event → Key → Prop
  /-- The step starts a span and loses it. -/
  Loses : State → ListenerLabel Event → Prop
  /-- The step is a stop of a key in the table, and is skipped. -/
  Misses : State → ListenerLabel Event → Prop
  effect : ∀ {s l s'}, (spans s).WellFormed → system.step s l = some s' →
    ListenerEffect (isStart l) (Loses s l) (spans s) (spans s')
  enabled : ∀ {s l key}, (spans s).WellFormed → isStop l key → (system.step s l).isSome
  stop : ∀ {s l s' key}, isStop l key → system.step s l = some s' → ¬Misses s l →
    EndsSpan spans s s' key
  missed : ∀ {s l s'}, system.step s l = some s' → Misses s l →
    s' = s ∧ ∃ key, isStop l key ∧ (spans s).processing key ≠ none

namespace SpanListener

variable {State Event Key Data : Type} [DecidableEq Key]

/-- A stop event for a key in the table ends the span of the key, which was open, and no other,
    and removes the key; one for an unknown key changes nothing. -/
def StopIsExact (L : SpanListener State Event Key Data) (s : State) (l : ListenerLabel Event) :
    Prop :=
  ∀ key s', L.isStop l key → L.system.step s l = some s' →
    match (L.spans s).inFlight.table key with
    | none => s' = s
    | some k => (L.spans s).isEnded k = false ∧ ListenerState.Ends (L.spans s) (L.spans s') key k

/-- Each start event has its stop event. -/
def EachStartStops (L : SpanListener State Event Key Data) (ls : List (ListenerLabel Event)) :
    Prop :=
  ∀ before l after key, ls = before ++ l :: after → L.isStart l key → ∃ m ∈ after, L.isStop m key

/-- A stop event can always be processed. -/
def StopsEnabled (L : SpanListener State Event Key Data) (s : State) : Prop :=
  ∀ l key, L.isStop l key → (L.system.step s l).isSome

/-- The listener tracks its spans exactly along the labels. -/
structure TracksExactly (L : SpanListener State Event Key Data) (s : State)
    (ls : List (ListenerLabel Event)) : Prop where
  tracks : L.system.Always (fun s => (L.spans s).Tracks) s ls
  enabled : L.system.Always L.StopsEnabled s ls
  stops : L.system.Along L.StopIsExact s ls
  empties : L.EachStartStops ls → ∀ s', L.system.run s ls = some s' →
    ∀ key, (L.spans s').processing key = none

/-- The step loses no span and misses no stop. -/
def KeepsTrack (L : SpanListener State Event Key Data) (s : State) (l : ListenerLabel Event) :
    Prop :=
  ¬L.Loses s l ∧ ¬L.Misses s l

variable {L : SpanListener State Event Key Data}

theorem wellFormed_step {s s' : State} {l : ListenerLabel Event} (hs : (L.spans s).WellFormed)
    (hstep : L.system.step s l = some s') : (L.spans s').WellFormed := by
  cases L.effect hs hstep with
  | quiet h _ => exact h.wellFormed hs
  | lose h _ => exact h.wellFormed hs
  | put _ h hadd _ => exact (h.put hs hadd).2
  | remove _ h _ => exact h.wellFormed hs

/-- Only a step that loses a span breaks the tracking. -/
theorem tracks_step_iff {s s' : State} {l : ListenerLabel Event} (hs : (L.spans s).WellFormed)
    (htracks : (L.spans s).Tracks) (hstep : L.system.step s l = some s') :
    (L.spans s').Tracks ↔ ¬L.Loses s l := by
  cases L.effect hs hstep with
  | quiet h hloses =>
    unfold ListenerState.Tracks
    rw [h.inFlight_eq]
    exact ⟨fun _ => hloses, fun _ => htracks⟩
  | lose h hloses =>
    have hiff := InFlight.tracks_step_iff htracks (h.lose hs)
    exact ⟨fun h => absurd rfl (hiff.mp h _), fun h => absurd hloses h⟩
  | put _ h hadd hloses =>
    have hiff := InFlight.tracks_step_iff htracks (h.put hs hadd).1
    exact ⟨fun _ => hloses, fun _ => hiff.mpr nofun⟩
  | remove hkey h hloses =>
    have hiff := InFlight.tracks_step_iff htracks (h.remove hs hkey)
    exact ⟨fun _ => hloses, fun _ => hiff.mpr nofun⟩

theorem stopIsExact_of_keepsTrack {s : State} {l : ListenerLabel Event}
    (htracks : (L.spans s).Tracks) (h : L.KeepsTrack s l) : L.StopIsExact s l := by
  intro key s' hstop hstep
  have hends := L.stop hstop hstep h.2
  unfold EndsSpan at hends
  rcases hkey : (L.spans s).inFlight.table key with _ | k
  · rw [hkey] at hends
    exact hends
  · rw [hkey] at hends
    have hopen := (htracks.values k).mpr ⟨key, hkey⟩
    exact ⟨hopen.2, hends⟩

/-- A stop that is missed leaves its key in the table. -/
theorem not_misses_of_stopIsExact {s s' : State} {l : ListenerLabel Event}
    (hstep : L.system.step s l = some s') (h : L.StopIsExact s l) : ¬L.Misses s l := by
  intro hmisses
  obtain ⟨rfl, key, hstop, hkey⟩ := L.missed hstep hmisses
  have hexact := h key s' hstop hstep
  rcases htable : (L.spans s').inFlight.table key with _ | k
  · exact hkey (table_eq_none_iff.mp htable)
  · rw [htable] at hexact
    have hremoved := congrFun hexact.2.processing key
    rw [Function.update_self] at hremoved
    exact hkey hremoved

/-- A key comes into the table by a start event. -/
theorem isStart_of_processing {s s' : State} {l : ListenerLabel Event} {key : Key}
    (hs : (L.spans s).WellFormed) (hstep : L.system.step s l = some s')
    (hnone : (L.spans s).processing key = none) (hsome : (L.spans s').processing key ≠ none) :
    L.isStart l key := by
  cases L.effect hs hstep with
  | quiet h _ =>
    rw [h.processing] at hsome
    exact absurd hnone hsome
  | lose h _ =>
    rw [h.processing] at hsome
    exact absurd hnone hsome
  | @put key' data s₁ hstart h hadd _ =>
    obtain ⟨_, heq⟩ := ListenerState.tryAdd_eq_some hadd
    by_cases hkey : key = key'
    · exact hkey ▸ hstart
    · rw [heq] at hsome
      simp only [Function.update_of_ne hkey, h.processing] at hsome
      exact absurd hnone hsome
  | @remove key' k hkey' h _ =>
    rw [h.processing] at hsome
    by_cases hkey : key = key'
    · rw [hkey, Function.update_self] at hsome
      exact absurd rfl hsome
    · rw [Function.update_of_ne hkey] at hsome
      exact absurd hnone hsome

/-- A stop event that is not missed leaves its key out of the table. -/
theorem processing_eq_none_of_isStop {s s' : State} {l : ListenerLabel Event} {key : Key}
    (h : L.KeepsTrack s l) (hstop : L.isStop l key) (hstep : L.system.step s l = some s') :
    (L.spans s').processing key = none := by
  have hends := L.stop hstop hstep h.2
  unfold EndsSpan at hends
  rcases hkey : (L.spans s).inFlight.table key with _ | k
  · rw [hkey] at hends
    rw [hends]
    exact table_eq_none_iff.mp hkey
  · rw [hkey] at hends
    rw [hends.processing, Function.update_self]

/-- A listener tracks its spans exactly as long as no start loses its span and no stop is
    missed. -/
theorem tracksExactly_iff {s : State} (hinit : L.system.init s)
    (ls : List (ListenerLabel Event)) :
    L.TracksExactly s ls ↔ L.system.Along L.KeepsTrack s ls := by
  have hnew := L.isNew s hinit
  have hwf := hnew.wellFormed
  constructor
  · rintro ⟨htracks, -, hstops, -⟩
    clear hinit hnew
    induction ls generalizing s with
    | nil => trivial
    | cons l ls ih =>
      intro t hstep
      obtain ⟨hstop, hrest⟩ := hstops t hstep
      have hloses := (tracks_step_iff hwf htracks.1 hstep).mp (htracks.2 t hstep).head
      exact ⟨⟨hloses, not_misses_of_stopIsExact hstep hstop⟩,
        ih (wellFormed_step hwf hstep) (htracks.2 t hstep) hrest⟩
  · intro hkeeps
    have hinv : ∀ s l s', ((L.spans s).WellFormed ∧ (L.spans s).Tracks) → L.KeepsTrack s l →
        L.system.step s l = some s' → (L.spans s').WellFormed ∧ (L.spans s').Tracks :=
      fun s l s' ⟨hs, htracks⟩ hl hstep =>
        ⟨wellFormed_step hs hstep, (tracks_step_iff hs htracks hstep).mpr hl.1⟩
    have hI := And.intro hwf hnew.tracks
    refine ⟨?_, ?_, ?_, ?_⟩
    · exact (LTS.System.always_of_along hinv hI hkeeps).mono fun _ h => h.2
    · exact (LTS.System.always_of_along hinv hI hkeeps).mono fun _ h _ _ => L.enabled h.1
    · exact LTS.System.Along.imp hinv (fun _ _ _ h hl _ => stopIsExact_of_keepsTrack h.2 hl) hI
        hkeeps
    · intro heach s' hrun key
      by_contra hkey
      have hhistory := InFlight.exists_start_of_run (I := fun s => (L.spans s).WellFormed)
        (fun s => (L.spans s).processing key) (L.isStart · key) (L.isStop · key)
        (fun _ _ _ => wellFormed_step) (fun _ _ _ => isStart_of_processing)
        (fun _ _ _ => processing_eq_none_of_isStop) hwf hkeeps hrun hkey
      obtain ⟨hthere, _⟩ | ⟨before, l, after, hls, hstarted, hnone⟩ := hhistory
      · exact hthere (hnew.processing key)
      · obtain ⟨m, hm, hstopped⟩ := heach before l after key hls hstarted
        exact hnone m hm hstopped

/-- A listener that has lost a span or missed a stop does not track its spans. -/
theorem not_tracksExactly_of_run {s t t' : State} {before after : List (ListenerLabel Event)}
    {l : ListenerLabel Event} (hinit : L.system.init s)
    (hrun : L.system.run s before = some t) (hstep : L.system.step t l = some t')
    (h : L.Loses t l ∨ L.Misses t l) : ¬L.TracksExactly s (before ++ l :: after) := by
  intro htracks
  have hkeeps := ((tracksExactly_iff hinit _).mp htracks).of_run hrun hstep
  exact h.elim hkeeps.1 hkeeps.2

end SpanListener

end ApmAgent
