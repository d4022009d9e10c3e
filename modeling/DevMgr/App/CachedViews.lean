import DevMgr.App.Updates
import DevMgr.Core.SnapshotModels

/-!
# The cached views

A refresh fetches a reading and stores it later, so one that was fetched earlier can
be stored last. Where none overtakes another, the cache holds the last reading, and
what it has shown is not replaced by anything older.
-/

open DevMgr.Core

namespace DevMgr.App
open Bytes Observed Run

/-- `daemon` is what the daemon lists now. Beside the facade stand a clock, what is shown, what was
answered last, and what the daemon lists at each time. -/
structure SnapshotCache where
  daemon : List SnapshotMeta
  snapshots : List SnapshotMeta
  fetching : ℕ
  fetched : List (Stamped (List SnapshotMeta))
  clock : ℕ
  shown : Stamped (List SnapshotMeta)
  latest : Stamped (List SnapshotMeta)
  listed : ℕ → List SnapshotMeta

namespace SnapshotCache

inductive Action where
  | mutate (metas : List SnapshotMeta)
  | refreshSnapshots
  | noChannel
  | failed
  | answered
  | store (reading : Stamped (List SnapshotMeta))

def start (metas : List SnapshotMeta) : SnapshotCache where
  daemon := metas
  snapshots := []
  fetching := 0
  fetched := []
  clock := 0
  shown := ⟨0, []⟩
  latest := ⟨0, []⟩
  listed _ := metas

variable (s : SnapshotCache)

def mutate (metas : List SnapshotMeta) : SnapshotCache :=
  { s with
    daemon := metas
    clock := s.clock + 1
    listed := fun t => if t ≤ s.clock then s.listed t else metas }

def answered : SnapshotCache :=
  { s with
    fetching := s.fetching - 1
    fetched := ⟨s.clock + 1, s.daemon⟩ :: s.fetched
    clock := s.clock + 1
    latest := ⟨s.clock + 1, s.daemon⟩ }

def store (reading : Stamped (List SnapshotMeta)) : SnapshotCache :=
  { s with
    snapshots := reading.value
    fetched := s.fetched.erase reading
    shown := s.shown.newer reading }

def step (channel : Bool) (s : SnapshotCache) : Action → Option SnapshotCache
  | .mutate metas => some (s.mutate metas)
  | .refreshSnapshots => some { s with fetching := s.fetching + 1 }
  | .noChannel =>
    if 0 < s.fetching ∧ channel = false then
      some { s with snapshots := [], fetching := s.fetching - 1 }
    else none
  | .failed => if 0 < s.fetching ∧ channel = true then some { s with fetching := s.fetching - 1 }
      else none
  | .answered => if 0 < s.fetching ∧ channel = true then some s.answered else none
  | .store reading => if reading ∈ s.fetched then some (s.store reading) else none

def view : View (List SnapshotMeta) where
  clock := s.clock
  value := s.snapshots
  shown := s.shown
  latest := s.latest
  waiting := {reading | reading ∈ s.fetched}

/-- No other list that was answered earlier is still to be stored. -/
def InTurn : Action → SnapshotCache → Prop
  | .store reading, _ => s.view.Prompt reading
  | _, _ => True

/-- At rest the cache is the last answer. What it shows was listed at a time that never goes back
and is not before that of any answer that has been stored. -/
structure Fresh (a : Action) (s' : SnapshotCache) : Prop where
  rest : s'.fetched = [] → s'.snapshots = s'.latest.value
  kept : s.shown.stamp ≤ s'.shown.stamp
  stored : ∀ reading, a = .store reading → reading.stamp ≤ s'.shown.stamp
  listed : 0 < s'.shown.stamp → s'.snapshots = s'.listed s'.shown.stamp

structure Sound (channel : Bool) : Prop where
  view : s.view.Orderly
  unread : channel = false → s.fetched = [] ∧ s.snapshots = []
  daemon : ∀ t, s.clock ≤ t → s.listed t = s.daemon
  listed : ∀ reading ∈ s.fetched, s.listed reading.stamp = reading.value
  shown : 0 < s.shown.stamp → s.listed s.shown.stamp = s.shown.value

variable {s} {channel : Bool} {s' : SnapshotCache} {a : Action}
  {reading : Stamped (List SnapshotMeta)}

theorem sound_start (metas : List SnapshotMeta) : (start metas).Sound channel := by
  refine ⟨?_, fun _ => ⟨rfl, rfl⟩, fun _ _ => rfl, nofun, nofun⟩
  have hwaiting : {reading | reading ∈ (start metas).fetched} = ∅ := by
    ext reading
    simp [start]
  unfold SnapshotCache.view
  rw [hwaiting]
  exact View.Orderly.start []

theorem Sound.mutate (h : s.Sound channel) (metas : List SnapshotMeta) :
    (s.mutate metas).Sound channel := by
  have hpast : ∀ t ≤ s.clock, (s.mutate metas).listed t = s.listed t := fun t ht => if_pos ht
  refine ⟨h.view.later (Nat.le_succ _), h.unread, fun t ht => if_neg (Nat.not_le.mpr ht),
    fun reading hr => ?_,
    fun hshown => ?_⟩
  · rw [hpast _ ((h.view.waiting_le reading hr).trans h.view.past)]
    exact h.listed reading hr
  · exact (hpast _ (h.view.shown_le.trans h.view.past)).trans (h.shown hshown)

theorem Sound.answered (h : s.Sound channel) (hchannel : channel = true) :
    s.answered.Sound channel := by
  refine ⟨h.view.observe rfl List.mem_cons_self fun o ho => List.mem_cons.mp ho,
    fun hnone => absurd (hchannel.symm.trans hnone) nofun, fun t ht =>
      h.daemon t (Nat.le_of_succ_le ht),
    fun reading hr => ?_, h.shown⟩
  rcases List.mem_cons.mp hr with rfl | hold
  · exact h.daemon _ (Nat.le_succ _)
  · exact h.listed reading hold

theorem Sound.store (h : s.Sound channel) (hr : reading ∈ s.fetched)
    (hturn : s.view.Prompt reading) :
    (s.store reading).Sound channel := by
  refine ⟨h.view.apply hr hturn (fun _ => List.mem_of_mem_erase) fun o ho => ?_,
    fun hnone => ?_, h.daemon,
    fun other hother => h.listed other (List.mem_of_mem_erase hother), fun hshown => ?_⟩
  · by_cases heq : o = reading
    · exact .inl heq
    · exact .inr ((List.mem_erase_of_ne heq).mpr ho)
  · rw [(h.unread hnone).1] at hr
    cases hr
  · change s.listed (s.shown.newer reading).stamp = (s.shown.newer reading).value
    change 0 < (s.shown.newer reading).stamp at hshown
    unfold Stamped.newer at hshown ⊢
    split_ifs at hshown ⊢ with hle
    · exact h.listed reading hr
    · exact h.shown hshown

theorem Sound.step (h : s.Sound channel) (hstep : s.step channel a = some s')
    (hturn : s.InTurn a s') :
    s'.Sound channel := by
  cases a with
  | mutate metas => exact Option.some.inj hstep ▸ h.mutate metas
  | refreshSnapshots => exact Option.some.inj hstep ▸ ⟨h.view, h.unread,
      h.daemon, h.listed, h.shown⟩
  | noChannel =>
    obtain ⟨⟨-, hnone⟩, hs'⟩ := Option.ite_none_right_eq_some.mp hstep
    have hsame : { s with snapshots := [], fetching := s.fetching - 1 } =
        { s with fetching := s.fetching - 1 } := by
      rw [(h.unread hnone).2]
    rw [hsame] at hs'
    exact Option.some.inj hs' ▸ ⟨h.view, h.unread, h.daemon, h.listed, h.shown⟩
  | failed =>
    obtain ⟨-, hs'⟩ := Option.ite_none_right_eq_some.mp hstep
    exact Option.some.inj hs' ▸ ⟨h.view, h.unread, h.daemon, h.listed, h.shown⟩
  | answered =>
    obtain ⟨⟨-, hchannel⟩, hs'⟩ := Option.ite_none_right_eq_some.mp hstep
    exact Option.some.inj hs' ▸ h.answered hchannel
  | store reading =>
    obtain ⟨hr, hs'⟩ := Option.ite_none_right_eq_some.mp hstep
    exact Option.some.inj hs' ▸ h.store hr hturn

theorem shown_kept (hstep : s.step channel a = some s') :
    s.shown.stamp ≤ s'.shown.stamp ∧
      ∀ reading, a = .store reading → reading.stamp ≤ s'.shown.stamp := by
  cases a with
  | store reading =>
    obtain ⟨-, hs'⟩ := Option.ite_none_right_eq_some.mp hstep
    obtain rfl := Option.some.inj hs'
    have hstamp : (s.store reading).shown.stamp = max s.shown.stamp reading.stamp :=
      Stamped.stamp_newer s.shown reading
    rw [hstamp]
    refine ⟨le_max_left _ _, fun other hother => ?_⟩
    cases hother
    exact le_max_right _ _
  | mutate metas => exact Option.some.inj hstep ▸ ⟨le_refl _, nofun⟩
  | refreshSnapshots => exact Option.some.inj hstep ▸ ⟨le_refl _, nofun⟩
  | noChannel | failed | answered =>
    obtain ⟨-, hs'⟩ := Option.ite_none_right_eq_some.mp hstep
    exact Option.some.inj hs' ▸ ⟨le_refl _, nofun⟩

theorem Sound.fresh (h : s'.Sound channel) (hstep : s.step channel a = some s') : s.Fresh a s' where
  rest hrest := h.view.at_rest fun o ho => by
    have hmem : o ∈ s'.fetched := ho
    rw [hrest] at hmem
    cases hmem
  kept := (shown_kept hstep).1
  stored := (shown_kept hstep).2
  listed hshown := h.view.value.trans (h.shown hshown).symm

theorem snapshots_fresh (metas : List SnapshotMeta) {actions : List Action}
    (hturn : MeetsSome (step channel) InTurn (start metas) actions) :
    MeetsSome (step channel) Fresh (start metas) actions :=
  meetsSome_of_invariant (I := fun s => s.Sound channel) (step channel)
    (fun _ _ _ h hstep hc => ⟨h.step hstep hc, (h.step hstep hc).fresh hstep⟩)
      (sound_start metas) hturn

theorem inTurn_oldest (h : ∀ other ∈ s.fetched, reading.stamp ≤ other.stamp) :
    s.InTurn (.store reading) s' := fun other hother hearlier =>
  absurd hearlier (Nat.not_lt.mpr (h other hother))

end SnapshotCache

def Built.shown (b : Built) : Stamped (Option UpdateProviderState) := ⟨b.stamp, some b.state⟩

def Built.candidates (b : Built) : Stamped (List UpdateCandidate) :=
  ⟨b.origin, b.state.candidates⟩

namespace Updates

variable (providers : List UpdateProvider) (s : Updates)

def builtAt (i : ℕ) : Set Built := {b | ∃ r ∈ s.refreshes, r.built[i]? = some b}

def stateView (i : ℕ) : View (Option UpdateProviderState) where
  clock := s.clock
  value := s.snapshot[i]?
  shown := s.shown i
  latest := s.latest i
  waiting := Built.shown '' s.builtAt i

def candidatesView (i : ℕ) : View (List UpdateCandidate) where
  clock := s.clock
  value := s.candidatesAt i
  shown := s.shownCandidates i
  latest := s.latestCandidates i
  waiting := Built.candidates '' s.builtAt i

/-- No other refresh that is still to be stored has an earlier state of a provider, nor another one
with candidates enumerated earlier. A state that keeps the candidates shown keeps those shown of its
own provider. -/
def InTurn : Action → Updates → Prop
  | .store w, _ => ∀ i b, w.built[i]? = some b →
    (s.stateView i).Prompt b.shown ∧ (s.candidatesView i).Prompt b.candidates
  | .enumerate w availability candidates, _ =>
    (availability.available = true → ∃ e, candidates = .error e) →
      ∀ provider, providers[w.built.length]? = some provider →
        lastGoodCandidates s.snapshot provider.providerId = s.candidatesAt w.built.length
  | _, _ => True

/-- At rest each state is the one built last, with the candidates of the last enumeration. What is
shown was built, and enumerated, at times that never go back and are not before those of any state
that has been stored. -/
structure Fresh (a : Action) (s' : Updates) : Prop where
  rest : s'.refreshes = [] → ∀ i < providers.length,
    s'.snapshot[i]? = (s'.latest i).value ∧ s'.candidatesAt i = (s'.latestCandidates i).value
  kept : ∀ i, (s.shown i).stamp ≤ (s'.shown i).stamp ∧
    (s.shownCandidates i).stamp ≤ (s'.shownCandidates i).stamp
  stored : ∀ w, a = .store w → ∀ i b, w.built[i]? = some b →
    b.stamp ≤ (s'.shown i).stamp ∧ b.origin ≤ (s'.shownCandidates i).stamp
  value : ∀ i < providers.length,
    s'.snapshot[i]? = (s'.shown i).value ∧ s'.candidatesAt i = (s'.shownCandidates i).value

structure Ordered : Prop where
  states : ∀ i < providers.length, (s.stateView i).Orderly
  candidates : ∀ i < providers.length, (s.candidatesView i).Orderly

structure Unseen (s' : Updates) : Prop where
  clock : s.clock ≤ s'.clock
  snapshot : s'.snapshot = s.snapshot
  built : ∀ i, s'.builtAt i = s.builtAt i
  shown : s'.shown = s.shown ∧ s'.shownCandidates = s.shownCandidates
  latest : s'.latest = s.latest ∧ s'.latestCandidates = s.latestCandidates

variable {providers s} {s' : Updates} {a : Action} {w : UpdatesRefresh} {i : ℕ}

theorem ordered_start : Ordered providers start := by
  have hbuilt : ∀ i, start.builtAt i = ∅ := fun i => by
    ext b
    simp [builtAt, start]
  refine ⟨fun i _ => ?_, fun i _ => ?_⟩
  · unfold stateView
    rw [hbuilt, Set.image_empty]
    exact View.Orderly.start none
  · unfold candidatesView
    rw [hbuilt, Set.image_empty]
    exact View.Orderly.start []

theorem Ordered.unseen (h : s.Ordered providers) (hsame : s.Unseen s') : s'.Ordered providers := by
  refine ⟨fun i hi => ?_, fun i hi => ?_⟩
  · unfold stateView
    rw [hsame.snapshot, hsame.built, hsame.shown.1, hsame.latest.1]
    exact (h.states i hi).later hsame.clock
  · unfold candidatesView candidatesAt
    rw [hsame.snapshot, hsame.built, hsame.shown.2, hsame.latest.2]
    exact (h.candidates i hi).later hsame.clock

theorem builtAt_replace (hw : w ∈ s.refreshes) (reconcile : Option Reconcile) (i : ℕ) :
    (s.replace w ⟨w.built, reconcile⟩).builtAt i = s.builtAt i := by
  ext b
  constructor
  · rintro ⟨r, hr, hb⟩
    rcases mem_replace hr with rfl | hold
    · exact ⟨w, hw, hb⟩
    · exact ⟨r, hold, hb⟩
  · rintro ⟨r, hr, hb⟩
    by_cases heq : r = w
    · exact ⟨_, List.mem_cons_self, heq ▸ hb⟩
    · exact ⟨r, List.mem_cons_of_mem _ ((List.mem_erase_of_ne heq).mpr hr), hb⟩

theorem builtAt_build (hw : w ∈ s.refreshes) (origin : ℕ) (state : UpdateProviderState)
    (reconcile : Option Reconcile) :
    (s.build w origin state reconcile).builtAt w.built.length =
      insert ⟨s.clock + 1, origin, state⟩ (s.builtAt w.built.length) := by
  ext b
  constructor
  · rintro ⟨r, hr, hb⟩
    rcases mem_replace hr with rfl | hold
    · rw [List.getElem?_concat_length] at hb
      exact .inl (Option.some.inj hb).symm
    · exact .inr ⟨r, hold, hb⟩
  · rintro (rfl | ⟨r, hr, hb⟩)
    · exact ⟨_, List.mem_cons_self, List.getElem?_concat_length⟩
    · have hother : r ≠ w := by
        rintro rfl
        rw [List.getElem?_eq_none (le_refl _)] at hb
        cases hb
      exact ⟨r, List.mem_cons_of_mem _ ((List.mem_erase_of_ne hother).mpr hr), hb⟩

theorem builtAt_build_of_ne (hw : w ∈ s.refreshes) (origin : ℕ) (state : UpdateProviderState)
    (reconcile : Option Reconcile) (hi : i ≠ w.built.length) :
    (s.build w origin state reconcile).builtAt i = s.builtAt i := by
  have hconcat : ∀ b : Built, (w.built ++ [b])[i]? = w.built[i]? := by
    intro b
    rcases Nat.lt_or_gt_of_ne hi with hlt | hgt
    · exact List.getElem?_append_left hlt
    · rw [List.getElem?_eq_none, List.getElem?_eq_none hgt.le]
      rw [List.length_append]
      exact hgt
  ext b
  constructor
  · rintro ⟨r, hr, hb⟩
    rcases mem_replace hr with rfl | hold
    · rw [hconcat] at hb
      exact ⟨w, hw, hb⟩
    · exact ⟨r, hold, hb⟩
  · rintro ⟨r, hr, hb⟩
    by_cases heq : r = w
    · subst heq
      refine ⟨_, List.mem_cons_self, ?_⟩
      rw [hconcat]
      exact hb
    · exact ⟨r, List.mem_cons_of_mem _ ((List.mem_erase_of_ne heq).mpr hr), hb⟩

theorem image_insert_cases {V : Type} {f : Built → V} {b : Built} {S : Set Built} :
    ∀ o ∈ f '' insert b S, o = f b ∨ o ∈ f '' S := by
  rintro o ⟨b', rfl | hb', rfl⟩
  · exact .inl rfl
  · exact .inr ⟨b', hb', rfl⟩

theorem Ordered.build_states (h : s.Ordered providers) (hw : w ∈ s.refreshes) (origin : ℕ)
    (state : UpdateProviderState) (reconcile : Option Reconcile) :
    ∀ i < providers.length, ((s.build w origin state reconcile).stateView i).Orderly := by
  intro i hi
  unfold stateView
  by_cases hlast : i = w.built.length
  · subst hlast
    rw [builtAt_build hw]
    have hlatest : (s.build w origin state reconcile).latest w.built.length =
        ⟨s.clock + 1, some state⟩ :=
      Function.update_self ..
    rw [hlatest]
    exact (h.states _ hi).observe rfl ⟨_, .inl rfl, rfl⟩ image_insert_cases
  · rw [builtAt_build_of_ne hw origin state reconcile hlast]
    have hlatest : (s.build w origin state reconcile).latest i = s.latest i :=
      Function.update_of_ne hlast ..
    rw [hlatest]
    exact (h.states i hi).later (Nat.le_succ _)

theorem Ordered.enumerated (h : s.Ordered providers) (hw : w ∈ s.refreshes)
    (candidates : List UpdateCandidate) (providerId : Str) (availability : ProviderAvailability)
    (reconcile : Option Reconcile) :
    Ordered providers { s.build w (s.clock + 1) ⟨providerId, availability, candidates,
      none⟩ reconcile with
      latestCandidates :=
        Function.update s.latestCandidates w.built.length ⟨s.clock + 1, candidates⟩ } := by
  refine ⟨h.build_states hw _ _ _, fun i hi => ?_⟩
  change View.Orderly ⟨s.clock + 1, s.candidatesAt i, s.shownCandidates i,
    Function.update s.latestCandidates w.built.length ⟨s.clock + 1, candidates⟩ i,
    Built.candidates ''
      (s.build w (s.clock + 1) ⟨providerId, availability, candidates,
        none⟩ reconcile).builtAt i⟩
  by_cases hlast : i = w.built.length
  · subst hlast
    rw [Function.update_self, builtAt_build hw]
    exact (h.candidates _ hi).observe rfl ⟨_, .inl rfl, rfl⟩ image_insert_cases
  · rw [Function.update_of_ne hlast, builtAt_build_of_ne hw _ _ _ hlast]
    exact (h.candidates i hi).later (Nat.le_succ _)

theorem Ordered.retained (h : s.Ordered providers) (hw : w ∈ s.refreshes) (providerId : Str)
    (availability : ProviderAvailability) (refreshError : Option Error)
    (reconcile : Option Reconcile)
    (hown : w.built.length < providers.length →
      lastGoodCandidates s.snapshot providerId = s.candidatesAt w.built.length) :
    (s.retain w providerId availability refreshError reconcile).Ordered providers := by
  refine ⟨h.build_states hw _ _ _, fun i hi => ?_⟩
  have hview : (s.retain w providerId availability refreshError reconcile).candidatesView i =
      ⟨s.clock + 1, s.candidatesAt i, s.shownCandidates i, s.latestCandidates i,
        Built.candidates ''
        (s.retain w providerId availability refreshError reconcile).builtAt i⟩ := rfl
  rw [hview]
  unfold Updates.retain
  by_cases hlast : i = w.built.length
  · subst hlast
    have hshown : Built.candidates ⟨s.clock + 1, (s.shownCandidates w.built.length).stamp,
        ⟨providerId, availability, lastGoodCandidates s.snapshot providerId, refreshError⟩⟩ =
          s.shownCandidates w.built.length := by
      have hvalue : s.candidatesAt w.built.length = (s.shownCandidates w.built.length).value :=
        (h.candidates _ hi).value
      unfold Built.candidates
      rw [hown hi, hvalue]
    rw [builtAt_build hw]
    refine ((h.candidates _ hi).retain (Set.image_mono (Set.subset_insert _ _))
      fun o ho => ?_).later
      (Nat.le_succ _)
    rcases image_insert_cases o ho with rfl | hold
    · exact .inl hshown
    · exact .inr hold
  · rw [builtAt_build_of_ne hw _ _ _ hlast]
    exact (h.candidates i hi).later (Nat.le_succ _)

theorem image_store_cases {V : Type} {f : Built → V} {b : Built} (hb : w.built[i]? = some b) :
    ∀ o ∈ f '' s.builtAt i, o = f b ∨ o ∈ f '' (s.store w).builtAt i := by
  rintro o ⟨b', ⟨r, hr, hb'⟩, rfl⟩
  by_cases heq : r = w
  · subst heq
    exact .inl (congrArg f (Option.some.inj (hb'.symm.trans hb)))
  · exact .inr ⟨b', ⟨r, (List.mem_erase_of_ne heq).mpr hr, hb'⟩, rfl⟩

theorem builtAt_store_subset : (s.store w).builtAt i ⊆ s.builtAt i :=
  fun _ ⟨r, hr, hb⟩ => ⟨r, List.mem_of_mem_erase hr, hb⟩

theorem Ordered.store (h : s.Ordered providers) (hw : w ∈ s.refreshes)
    (hbuilt : w.built.length = providers.length) (hturn : s.InTurn providers (.store w) s') :
    (s.store w).Ordered providers := by
  have hat : ∀ i < providers.length, ∃ b, w.built[i]? = some b := fun i hi =>
    ⟨_, List.getElem?_eq_getElem (hbuilt ▸ hi)⟩
  refine ⟨fun i hi => ?_, fun i hi => ?_⟩
  · obtain ⟨b, hb⟩ := hat i hi
    have hview : (s.store w).stateView i = ⟨s.clock, b.shown.value,
        (s.shown i).newer b.shown, s.latest i,
        Built.shown '' (s.store w).builtAt i⟩ := by
      unfold stateView Updates.store
      simp only [hb, List.getElem?_map, Option.map_some]
      rfl
    rw [hview]
    exact (h.states i hi).apply ⟨b, ⟨w, hw, hb⟩, rfl⟩ (hturn i b hb).1
      (Set.image_mono builtAt_store_subset)
      (image_store_cases hb)
  · obtain ⟨b, hb⟩ := hat i hi
    have hview : (s.store w).candidatesView i = ⟨s.clock, b.candidates.value,
        (s.shownCandidates i).newer b.candidates, s.latestCandidates i,
        Built.candidates '' (s.store w).builtAt i⟩ := by
      unfold candidatesView candidatesAt Updates.store
      simp only [hb, List.getElem?_map, Option.map_some, Option.getD_some]
      rfl
    rw [hview]
    exact (h.candidates i hi).apply ⟨b, ⟨w, hw, hb⟩, rfl⟩ (hturn i b hb).2
      (Set.image_mono builtAt_store_subset)
      (image_store_cases hb)

theorem unseen_of_refreshes (hrefreshes : s'.refreshes = s.refreshes) (hclock : s.clock ≤ s'.clock)
    (hsnapshot : s'.snapshot = s.snapshot)
    (hshown : s'.shown = s.shown ∧ s'.shownCandidates = s.shownCandidates)
    (hlatest : s'.latest = s.latest ∧ s'.latestCandidates = s.latestCandidates) :
    s.Unseen s' := by
  refine ⟨hclock, hsnapshot, fun i => ?_, hshown, hlatest⟩
  unfold builtAt
  rw [hrefreshes]

theorem unseen_of_replace (hw : w ∈ s.refreshes) {reconcile : Option Reconcile}
    (hrefreshes : s'.refreshes = (s.replace w ⟨w.built, reconcile⟩).refreshes)
    (hclock : s.clock ≤ s'.clock) (hsnapshot : s'.snapshot = s.snapshot)
    (hshown : s'.shown = s.shown ∧ s'.shownCandidates = s.shownCandidates)
    (hlatest : s'.latest = s.latest ∧ s'.latestCandidates = s.latestCandidates) :
    s.Unseen s' := by
  refine ⟨hclock, hsnapshot, fun i => ?_, hshown, hlatest⟩
  rw [← builtAt_replace hw reconcile]
  unfold builtAt
  rw [hrefreshes]

theorem shown_store_stamp {b : Built} (hb : w.built[i]? = some b) :
    ((s.store w).shown i).stamp = max (s.shown i).stamp b.stamp ∧
      ((s.store w).shownCandidates i).stamp = max (s.shownCandidates i).stamp b.origin := by
  unfold Updates.store
  simp only [hb]
  exact ⟨Stamped.stamp_newer .., Stamped.stamp_newer ..⟩

theorem shown_store_none (hb : w.built[i]? = none) :
    (s.store w).shown i = s.shown i ∧ (s.store w).shownCandidates i = s.shownCandidates i := by
  unfold Updates.store
  simp only [hb, and_self]

def Kept (s : Updates) (a : Action) (s' : Updates) : Prop :=
  (∀ i, (s.shown i).stamp ≤ (s'.shown i).stamp ∧
    (s.shownCandidates i).stamp ≤ (s'.shownCandidates i).stamp) ∧
  ∀ w, a = .store w → ∀ i b, w.built[i]? = some b →
    b.stamp ≤ (s'.shown i).stamp ∧ b.origin ≤ (s'.shownCandidates i).stamp

theorem kept_store : s.Kept (.store w) (s.store w) := by
  refine ⟨fun i => ?_, fun w' hw' i b hb => ?_⟩
  · cases hb : w.built[i]? with
    | none =>
      rw [(shown_store_none hb).1, (shown_store_none hb).2]
      exact ⟨le_refl _, le_refl _⟩
    | some b =>
      rw [(shown_store_stamp hb).1, (shown_store_stamp hb).2]
      exact ⟨le_max_left _ _, le_max_left _ _⟩
  · cases hw'
    rw [(shown_store_stamp hb).1, (shown_store_stamp hb).2]
    exact ⟨le_max_right _ _, le_max_right _ _⟩

theorem kept_of_shown (ha : ∀ w, a ≠ .store w)
    (hshown : s'.shown = s.shown ∧ s'.shownCandidates = s.shownCandidates) : s.Kept a s' := by
  refine ⟨fun i => ?_, fun w hw => absurd hw (ha w)⟩
  rw [hshown.1, hshown.2]
  exact ⟨le_refl _, le_refl _⟩

theorem Ordered.of_unseen (h : s.Ordered providers) (ha : ∀ w, a ≠ .store w) (hsame : s.Unseen s') :
    s'.Ordered providers ∧ s.Kept a s' := ⟨h.unseen hsame, kept_of_shown ha hsame.shown⟩

theorem Ordered.enumerate (h : s.Ordered providers) (hw : w ∈ s.refreshes)
    {provider : UpdateProvider}
    (hprovider : providers[w.built.length]? = some provider) {availability : ProviderAvailability}
    {candidates : Result (List UpdateCandidate)}
    (hturn : s.InTurn providers (.enumerate w availability candidates) s') :
    (s.enumerate w provider availability candidates).Ordered providers ∧
      s.Kept (.enumerate w availability candidates)
        (s.enumerate w provider availability candidates) := by
  unfold Updates.enumerate
  by_cases havailable : availability.available = true
  · rw [if_neg (not_not.mpr havailable)]
    cases candidates with
    | ok candidates => exact ⟨h.enumerated hw _ _ _ _, kept_of_shown nofun ⟨rfl, rfl⟩⟩
    | error e =>
      exact ⟨h.retained hw _ _ _ _ fun _ => hturn (fun _ => ⟨e, rfl⟩) provider hprovider,
        kept_of_shown nofun ⟨rfl, rfl⟩⟩
  · rw [if_pos havailable]
    exact ⟨h.retained hw _ _ _ _ fun _ =>
        hturn (fun hyes => absurd hyes havailable) provider hprovider,
      kept_of_shown nofun ⟨rfl, rfl⟩⟩

theorem Ordered.step (h : s.Ordered providers) (hstep : s.step providers a = some s')
    (hturn : s.InTurn providers a s') : s'.Ordered providers ∧ s.Kept a s' := by
  cases step_cases hstep with
  | refreshUpdates =>
    refine h.of_unseen nofun ⟨le_refl _, rfl, fun i => ?_, ⟨rfl, rfl⟩, rfl, rfl⟩
    ext b
    constructor
    · rintro ⟨r, hr, hb⟩
      rcases List.mem_cons.mp hr with rfl | hold
      · cases hb
      · exact ⟨r, hold, hb⟩
    · exact fun ⟨r, hr, hb⟩ => ⟨r, List.mem_cons_of_mem _ hr, hb⟩
  | enumerate hw _ hprovider => exact h.enumerate hw hprovider hturn
  | pendingActions hw _ =>
    exact h.of_unseen nofun
      (unseen_of_replace hw rfl (Nat.le_succ _) rfl ⟨rfl, rfl⟩ ⟨rfl, rfl⟩)
  | @pendingReply w p e since reply hw _ =>
    cases reply with
    | error err =>
      exact h.of_unseen nofun (unseen_of_replace hw rfl (le_refl _) rfl ⟨rfl, rfl⟩ ⟨rfl, rfl⟩)
    | ok actions =>
      exact h.of_unseen nofun (unseen_of_replace hw rfl (le_refl _) rfl ⟨rfl, rfl⟩ ⟨rfl, rfl⟩)
  | upsertReported hw _ | eraseUnreported hw _ | keepUnreported hw _ =>
    exact h.of_unseen nofun (unseen_of_replace hw rfl (le_refl _) rfl ⟨rfl, rfl⟩ ⟨rfl, rfl⟩)
  | store hw _ hbuilt => exact ⟨h.store hw hbuilt hturn, kept_store⟩
  | installUpdate providerId candidateId release =>
    unfold installUpdate
    split_ifs <;>
      exact h.of_unseen nofun
        (unseen_of_refreshes rfl (le_refl _) rfl ⟨rfl, rfl⟩ ⟨rfl, rfl⟩)
  | submit _ _ | refuse _ _ | releaseInstall _ _ =>
    exact h.of_unseen nofun (unseen_of_refreshes rfl (le_refl _) rfl ⟨rfl, rfl⟩ ⟨rfl, rfl⟩)
  | startInstall _ _ =>
    unfold startInstall
    split
    · exact h.of_unseen nofun
        (unseen_of_refreshes rfl (le_refl _) rfl ⟨rfl, rfl⟩ ⟨rfl, rfl⟩)
    · split_ifs <;>
        exact h.of_unseen nofun
          (unseen_of_refreshes rfl (le_refl _) rfl ⟨rfl, rfl⟩ ⟨rfl, rfl⟩)
  | installReturned _ _ =>
    exact h.of_unseen nofun
      (unseen_of_refreshes rfl (Nat.le_succ _) rfl ⟨rfl, rfl⟩ ⟨rfl, rfl⟩)
  | @recordInstall w stamp outcome _ _ =>
    unfold recordInstall
    cases outcome with
    | error e =>
      exact h.of_unseen nofun (unseen_of_refreshes rfl (le_refl _) rfl ⟨rfl, rfl⟩ ⟨rfl, rfl⟩)
    | ok outcome =>
      dsimp only
      split_ifs <;>
        exact h.of_unseen nofun
          (unseen_of_refreshes rfl (le_refl _) rfl ⟨rfl, rfl⟩ ⟨rfl, rfl⟩)

theorem Ordered.fresh (h : s'.Ordered providers) (hkept : s.Kept a s') :
    s.Fresh providers a s' where
  rest hrest i hi := by
    have hnone : ∀ b, b ∉ s'.builtAt i := by
      rintro b ⟨r, hr, -⟩
      rw [hrest] at hr
      cases hr
    exact ⟨(h.states i hi).at_rest fun o ⟨b, hb, _⟩ => hnone b hb,
      (h.candidates i hi).at_rest fun o ⟨b, hb, _⟩ => hnone b hb⟩
  kept := hkept.1
  stored := hkept.2
  value i hi := ⟨(h.states i hi).value, (h.candidates i hi).value⟩

theorem updates_fresh {actions : List Action}
    (hturn : MeetsSome (step providers) (InTurn providers) start actions) :
    MeetsSome (step providers) (Fresh providers) start actions := by
  refine meetsSome_of_invariant (I := Ordered providers) (step providers)
    (fun s a s' h hstep hc => ?_)
    ordered_start hturn
  obtain ⟨h', hkept⟩ := h.step hstep hc
  exact ⟨h', h'.fresh hkept⟩

theorem inTurn_oldest (h : ∀ r ∈ s.refreshes, ∀ b ∈ w.built, ∀ b' ∈ r.built,
    b.stamp ≤ b'.stamp ∧ b.origin ≤ b'.origin) : s.InTurn providers (.store w) s' := by
  have holder : ∀ {i b b'}, w.built[i]? = some b → b' ∈ s.builtAt i →
      b.stamp ≤ b'.stamp ∧ b.origin ≤ b'.origin := by
    rintro i b b' hb ⟨r, hr, hb'⟩
    exact h r hr b (List.mem_of_getElem? hb) b' (List.mem_of_getElem? hb')
  refine fun i b hb => ⟨?_, ?_⟩
  · rintro o ⟨b', hb', rfl⟩ hearlier
    exact absurd hearlier (Nat.not_lt.mpr (holder hb hb').1)
  · rintro o ⟨b', hb', rfl⟩ hearlier
    exact absurd hearlier (Nat.not_lt.mpr (holder hb hb').2)

end Updates

/-- In runs whose readings are stored in turn, the cached views are fresh. -/
theorem cached_views_fresh (channel : Bool) (metas : List SnapshotMeta)
    (providers : List UpdateProvider)
    {snapshotActions : List SnapshotCache.Action} {updateActions : List Updates.Action}
    (hsnapshots : MeetsSome (SnapshotCache.step channel) SnapshotCache.InTurn
      (.start metas) snapshotActions)
    (hupdates : MeetsSome (Updates.step providers)
      (Updates.InTurn providers) .start updateActions) :
    MeetsSome (SnapshotCache.step channel) SnapshotCache.Fresh (.start metas) snapshotActions ∧
      MeetsSome (Updates.step providers) (Updates.Fresh providers) .start updateActions :=
  ⟨SnapshotCache.snapshots_fresh metas hsnapshots, Updates.updates_fresh hupdates⟩

section Example

def listedSnapshot : SnapshotMeta :=
  ⟨str "5d41", none, 0, .manual, ⟨[], []⟩, .ok, 0, 0⟩

def dkms : List UpdateProvider := [⟨str "dkms", false⟩]

def installed (available : Bool) : ProviderAvailability := ⟨available, none, none, []⟩

def candidate : UpdateCandidate :=
  ⟨str "dkms", str "nvidia/550", str "nvidia", str "550", none,
    ⟨false, true, false⟩, [], []⟩

def builtOf (stamp : ℕ) : List Built :=
  [⟨stamp, stamp, ⟨str "dkms", installed true, [candidate], none⟩⟩]

def lastRefresh (stamp : ℕ) : List Updates.Action :=
  [.enumerate ⟨[], none⟩ (installed true) (.ok [candidate]),
    .pendingActions ⟨builtOf stamp, some ⟨str "dkms", true, .due⟩⟩,
    .pendingReply ⟨builtOf stamp, some ⟨str "dkms", true, .querying (stamp + 1)⟩⟩
      (.error ⟨.unsupported, []⟩),
    .store ⟨builtOf stamp, none⟩]

def twoRefreshes : List Updates.Action :=
  [.refreshUpdates, .refreshUpdates, .enumerate ⟨[], none⟩ (installed false) (.ok []),
    .enumerate ⟨[], none⟩ (installed true) (.ok [candidate]),
    .pendingActions ⟨builtOf 2, some ⟨str "dkms", true, .due⟩⟩,
    .pendingReply ⟨builtOf 2, some ⟨str "dkms", true, .querying 3⟩⟩
      (.error ⟨.unsupported, []⟩),
    .store ⟨[⟨1, 0, ⟨str "dkms", installed false, [], none⟩⟩], none⟩,
    .store ⟨builtOf 2, none⟩]

theorem cached_views_fresh_in_order :
    MeetsSome (SnapshotCache.step true) SnapshotCache.Fresh (.start [])
      [.refreshSnapshots, .refreshSnapshots, .answered, .mutate [listedSnapshot], .answered,
        .store ⟨1, []⟩, .store ⟨3, [listedSnapshot]⟩] ∧
    MeetsSome (Updates.step dkms) (Updates.Fresh dkms) .start twoRefreshes := by
  refine cached_views_fresh true [] dkms ?_ ?_
  · refine meetsSome_cons _ rfl trivial (meetsSome_cons _ rfl trivial (meetsSome_cons _ rfl trivial
      (meetsSome_cons _ rfl trivial (meetsSome_cons _ rfl trivial (meetsSome_cons _ rfl ?_
      (meetsSome_cons _ rfl ?_ trivial))))))
    · exact SnapshotCache.inTurn_oldest (by decide)
    · exact SnapshotCache.inTurn_oldest (by decide)
  · refine meetsSome_cons _ (Updates.step_of .refreshUpdates) trivial
      (meetsSome_cons _ (Updates.step_of .refreshUpdates) trivial
      (meetsSome_cons _ (Updates.step_of (.enumerate (.head _) rfl rfl)) ?_
      (meetsSome_cons _ (Updates.step_of (.enumerate (.tail _ (.head _)) rfl rfl)) ?_
      (meetsSome_cons _ (Updates.step_of (.pendingActions (.head _) rfl)) trivial
      (meetsSome_cons _ (Updates.step_of (.pendingReply (.head _) rfl)) trivial
      (meetsSome_cons _ (Updates.step_of (.store (.tail _ (.head _)) rfl rfl)) ?_
      (meetsSome_cons _ (Updates.step_of (.store (.head _) rfl rfl)) ?_ trivial)))))))
    · exact fun _ _ _ => rfl
    · intro hfailed
      obtain ⟨e, he⟩ := hfailed rfl
      cases he
    · exact Updates.inTurn_oldest (by decide)
    · exact Updates.inTurn_oldest (by decide)

/-- Of two workers the one that has fetched first stores last. -/
theorem older_reading_stored_last :
    (¬ ∀ channel metas actions, MeetsSome (SnapshotCache.step channel) SnapshotCache.Fresh
      (.start metas) actions) ∧
    ¬ ∀ providers actions, MeetsSome (Updates.step providers)
      (Updates.Fresh providers) .start actions := by
  refine ⟨fun hall => ?_, fun hall => ?_⟩
  · have h := hall true []
      [.refreshSnapshots, .refreshSnapshots, .answered, .mutate [listedSnapshot], .answered,
      .store ⟨3, [listedSnapshot]⟩, .store ⟨1, []⟩]
    have hfresh := (h _ rfl).2 _ rfl |>.2 _ rfl |>.2 _ rfl |>.2 _ rfl |>.2 _ rfl |>.2 _ rfl |>.1
    exact nomatch hfresh.rest rfl
  · have h := hall dkms (.refreshUpdates :: .refreshUpdates ::
      .enumerate ⟨[], none⟩ (installed false) (.ok []) :: (lastRefresh 2 ++
        [.store ⟨[⟨1, 0, ⟨str "dkms", installed false, [], none⟩⟩], none⟩]))
    obtain ⟨-, h⟩ := h _ (Updates.step_of .refreshUpdates)
    obtain ⟨-, h⟩ := h _ (Updates.step_of .refreshUpdates)
    obtain ⟨-, h⟩ := h _ (Updates.step_of (.enumerate (.head _) rfl rfl))
    obtain ⟨-, h⟩ := h _ (Updates.step_of (.enumerate (.tail _ (.head _)) rfl rfl))
    obtain ⟨-, h⟩ := h _ (Updates.step_of (.pendingActions (.head _) rfl))
    obtain ⟨-, h⟩ := h _ (Updates.step_of (.pendingReply (.head _) rfl))
    obtain ⟨-, h⟩ := h _ (Updates.step_of (.store (.head _) rfl rfl))
    obtain ⟨hfresh, -⟩ := h _ (Updates.step_of (.store (.head _) rfl rfl))
    exact nomatch (hfresh.rest rfl 0 (by decide)).2

end Example

end DevMgr.App
