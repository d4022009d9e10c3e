import DevMgr.App.Updates
import Mathlib.Data.List.DropRight

/-!
# The last good candidates

A provider that cannot be asked, or fails, keeps the candidates that are shown for
it. Where the refreshes run one after another these are the ones its last
enumeration found, whatever the other providers do.
-/

open DevMgr.Core

namespace DevMgr.App
open Bytes Run

namespace Updates

abbrev Reply := ProviderAvailability × Result (List UpdateCandidate)

def Reply.good (reply : Reply) : Option (List UpdateCandidate) :=
  if reply.1.available then reply.2.toOption else none

def Reply.refreshError (reply : Reply) : Option Error :=
  match reply with
  | (availability, .error e) => if availability.available then some e else none
  | (_, .ok _) => none

def replyOf (i : ℕ) : Action → Option Reply
  | .enumerate w availability candidates => if w.built.length = i then
      some (availability, candidates) else none
  | _ => none

def replies (i : ℕ) (actions : List Action) : List Reply := actions.filterMap (replyOf i)

def lastGood (replies : List Reply) : List UpdateCandidate :=
  ((replies.filterMap Reply.good).getLast?).getD []

def isRefresh : Action → Bool
  | .refreshUpdates => true
  | _ => false

def currentRun (actions : List Action) : List Action := actions.rtakeWhile fun a => ¬ isRefresh a

/-- A refresh is asked for when there is none. -/
def OneAfterAnother (s : Updates) (a : Action) (_ : Updates) : Prop :=
  a = .refreshUpdates → s.refreshes = []

def stateOf (providerId : Str) (reply : Reply) (candidates : List UpdateCandidate) :
    UpdateProviderState where
  providerId
  availability := reply.1
  candidates
  refreshError := reply.refreshError

/-- After a run every provider has answered once in it, and shows what it enumerated last. -/
def Retains (providers : List UpdateProvider) (actions : List Action) (t : Updates) : Prop :=
  ∀ i provider, providers[i]? = some provider →
  ∃ reply st, replies i (currentRun actions) = [reply] ∧
    t.snapshot[i]? = some st ∧ st.providerId = provider.providerId ∧
    st.candidates = lastGood (replies i actions) ∧
    (st.refreshError.isSome = true ↔ reply.1.available = true ∧ ∃ e, reply.2 = .error e)

variable {providers : List UpdateProvider} {s s' t : Updates} {a : Action}
  {past actions : List Action} {i : ℕ}

theorem replies_concat : replies i (past ++ [a]) = replies i past ++ (replyOf i a).toList := by
  unfold replies
  rw [List.filterMap_append]
  cases hreply : replyOf i a <;> simp [hreply]

theorem replies_currentRun_concat (ha : isRefresh a = false) :
    replies i (currentRun (past ++ [a])) = replies i (currentRun past) ++ (replyOf i a).toList := by
  have hrun : currentRun (past ++ [a]) = currentRun past ++ [a] := by
    unfold currentRun
    exact List.rtakeWhile_concat_pos _ _ _ (by simp [ha])
  rw [hrun, replies_concat]

theorem replies_skip (h : replyOf i a = none) : replies i (past ++ [a]) = replies i past := by
  rw [replies_concat, h, Option.toList_none, List.append_nil]

theorem replies_currentRun_skip (ha : isRefresh a = false) (h : replyOf i a = none) :
    replies i (currentRun (past ++ [a])) = replies i (currentRun past) := by
  rw [replies_currentRun_concat ha, h, Option.toList_none, List.append_nil]

theorem lastGood_concat (earlier : List Reply) (reply : Reply) :
    lastGood (earlier ++ [reply]) = reply.good.getD (lastGood earlier) := by
  unfold lastGood
  rw [List.filterMap_append]
  cases hgood : reply.good <;> simp [hgood]

theorem refreshError_isSome (reply : Reply) :
    reply.refreshError.isSome = true ↔ reply.1.available = true ∧
    ∃ e, reply.2 = .error e := by
  obtain ⟨availability, candidates⟩ := reply
  cases candidates with
  | ok candidates => simp [Reply.refreshError]
  | error e => cases havailable : availability.available <;> simp [Reply.refreshError, havailable]

def Due (providers : List UpdateProvider) (past : List Action) (i : ℕ)
    (st : UpdateProviderState) : Prop :=
  ∃ provider reply, providers[i]? = some provider ∧ replies i (currentRun past) = [reply] ∧
    (replies i past).getLast? = some reply ∧ st = stateOf provider.providerId reply
      (lastGood (replies i past))

structure Retaining (providers : List UpdateProvider) (s : Updates) (past : List Action) :
    Prop where
  alone : s.refreshes.length ≤ 1
  shown : ∀ (i : ℕ) (st : UpdateProviderState), s.snapshot[i]? = some st →
    ∃ provider, providers[i]? = some provider ∧ st.providerId = provider.providerId
  resting : ∀ i, (∀ built ∈ s.refreshes.map (·.built), built.length ≤ i) →
    s.candidatesAt i = lastGood (replies i past)
  built : ∀ built ∈ s.refreshes.map (·.built), ∀ (i : ℕ) (b : Built),
      built[i]? = some b → Due providers past i b.state
  unasked : ∀ built ∈ s.refreshes.map (·.built), ∀ i, built.length ≤ i →
      replies i (currentRun past) = []

theorem retaining_start : (start : Updates).Retaining providers [] where
  alone := Nat.zero_le _
  shown _ _ h := nomatch h
  resting _ _ := rfl
  built _ h := nomatch h
  unasked _ h := nomatch h

theorem alone_of_mem {w : UpdatesRefresh} (h : s.refreshes.length ≤ 1) (hw : w ∈ s.refreshes) :
    s.refreshes = [w] := by
  cases hrefreshes : s.refreshes with
  | nil =>
    rw [hrefreshes] at hw
    cases hw
  | cons w' rest =>
    rw [hrefreshes] at h hw
    have hnil : rest = [] := List.eq_nil_of_length_eq_zero (by rw [List.length_cons] at h; omega)
    subst hnil
    rw [List.mem_singleton.mp hw]

theorem replace_alone {w w' : UpdatesRefresh} (h : s.refreshes.length ≤ 1) (hw : w ∈ s.refreshes) :
    (s.replace w w').refreshes = [w'] := by
  unfold replace
  rw [alone_of_mem h hw]
  simp

theorem Retaining.quiet (h : s.Retaining providers past) (ha : isRefresh a = false)
    (hreply : ∀ i, replyOf i a = none) (hsnapshot : s'.snapshot = s.snapshot)
    (hbuilt : s'.refreshes.map (·.built) = s.refreshes.map (·.built)) : s'.Retaining providers
      (past ++ [a]) := by
  have hreplies : ∀ i, replies i (past ++ [a]) = replies i past :=
    fun i => replies_skip (hreply i)
  have hcurrent : ∀ i, replies i (currentRun (past ++ [a])) = replies i (currentRun past) :=
    fun i => replies_currentRun_skip ha (hreply i)
  constructor
  · have hlength := congrArg List.length hbuilt
    rw [List.length_map, List.length_map] at hlength
    rw [hlength]
    exact h.alone
  · rw [hsnapshot]
    exact h.shown
  · intro i hi
    rw [hbuilt] at hi
    unfold candidatesAt
    rw [hreplies, hsnapshot]
    exact h.resting i hi
  · rw [hbuilt]
    unfold Due
    simp only [hreplies, hcurrent]
    exact h.built
  · rw [hbuilt]
    simp only [hcurrent]
    exact h.unasked

theorem Retaining.replaced (h : s.Retaining providers past) {w : UpdatesRefresh}
    (hw : w ∈ s.refreshes)
    {reconcile : Option Reconcile} (ha : isRefresh a = false) (hreply : ∀ i, replyOf i a = none)
    (hsnapshot : s'.snapshot = s.snapshot)
    (hrefreshes : s'.refreshes = (s.replace w ⟨w.built, reconcile⟩).refreshes) :
    s'.Retaining providers (past ++ [a]) := by
  apply h.quiet ha hreply hsnapshot
  rw [hrefreshes, replace_alone h.alone hw, alone_of_mem h.alone hw]
  rfl

theorem lastGoodCandidates_at (hdistinct : (providers.map (·.providerId)).Nodup)
    (h : s.Retaining providers past)
    {provider : UpdateProvider} (hprovider : providers[i]? = some provider) :
    lastGoodCandidates s.snapshot provider.providerId = s.candidatesAt i := by
  unfold lastGoodCandidates candidatesAt
  cases hfind : s.snapshot.find? fun st => st.providerId = provider.providerId with
  | none =>
    cases hplace : s.snapshot[i]? with
    | none => rfl
    | some st =>
      obtain ⟨provider', hprovider', hid⟩ := h.shown i st hplace
      obtain rfl := Option.some.inj (hprovider.symm.trans hprovider')
      have hnone := List.find?_eq_none.mp hfind st (List.mem_of_getElem? hplace)
      exact absurd hid (by simpa using hnone)
  | some st =>
    obtain ⟨hid, k, hk, hst, -⟩ := List.find?_eq_some_iff_getElem.mp hfind
    have hplace : s.snapshot[k]? = some st := List.getElem?_eq_some_iff.mpr ⟨hk, hst⟩
    obtain ⟨provider', hprovider', hid'⟩ := h.shown k st hplace
    have hki : k = i := by
      have hlt : k < (providers.map (·.providerId)).length := by
        rw [List.length_map]
        exact (List.getElem?_eq_some_iff.mp hprovider').1
      apply (List.getElem?_inj hlt hdistinct).mp
      rw [List.getElem?_map, List.getElem?_map, hprovider, hprovider', Option.map_some,
        Option.map_some, ← hid',
        of_decide_eq_true hid]
    rw [← hki, hplace]

theorem enumerate_builds (w : UpdatesRefresh) (provider : UpdateProvider)
    (availability : ProviderAvailability) (candidates : Result (List UpdateCandidate)) :
    ∃ b reconcile, (s.enumerate w provider availability candidates).refreshes =
        (s.replace w ⟨w.built ++ [b], reconcile⟩).refreshes ∧
      (s.enumerate w provider availability candidates).snapshot = s.snapshot ∧
      b.state = stateOf provider.providerId (availability, candidates)
        ((Reply.good (availability, candidates)).getD
          (lastGoodCandidates s.snapshot provider.providerId)) := by
  unfold enumerate
  by_cases havailable : availability.available = true
  · rw [if_neg (not_not.mpr havailable)]
    cases candidates with
    | ok candidates =>
      refine ⟨_, _, rfl, rfl, ?_⟩
      simp [stateOf, Reply.good, Reply.refreshError, havailable, Except.toOption]
    | error e =>
      refine ⟨_, _, rfl, rfl, ?_⟩
      simp [stateOf, Reply.good, Reply.refreshError, havailable, Except.toOption]
  · rw [if_pos havailable]
    refine ⟨_, _, rfl, rfl, ?_⟩
    cases candidates with
    | ok candidates => simp [stateOf, Reply.good, Reply.refreshError, havailable]
    | error e => simp [stateOf, Reply.good, Reply.refreshError, havailable]

theorem Retaining.enumerate (hdistinct : (providers.map (·.providerId)).Nodup)
    (h : s.Retaining providers past)
    {w : UpdatesRefresh} (hw : w ∈ s.refreshes) {provider : UpdateProvider}
    (hprovider : providers[w.built.length]? = some provider) (availability : ProviderAvailability)
    (candidates : Result (List UpdateCandidate)) :
    (s.enumerate w provider availability candidates).Retaining providers
      (past ++ [.enumerate w availability candidates]) := by
  obtain ⟨b, reconcile, hrefreshes, hsnapshot, hstate⟩ :=
    enumerate_builds (s := s) w provider availability candidates
  have hmem : w.built ∈ s.refreshes.map (·.built) := List.mem_map_of_mem hw
  have hold : s.refreshes.map (·.built) = [w.built] := by rw [alone_of_mem h.alone hw]; rfl
  have hnew : (s.enumerate w provider availability candidates).refreshes.map
      (·.built) = [w.built ++ [b]] := by
    rw [hrefreshes, replace_alone h.alone hw]
    rfl
  have hother : ∀ i ≠ w.built.length, replyOf i
      (.enumerate w availability candidates) = none := by
    intro i hi
    exact if_neg fun heq => hi heq.symm
  have hreplies : ∀ i ≠ w.built.length,
      replies i (past ++ [.enumerate w availability candidates]) = replies i past :=
    fun i hi => replies_skip (hother i hi)
  have hcurrent : ∀ i ≠ w.built.length,
      replies i (currentRun (past ++ [.enumerate w availability candidates])) = replies i
        (currentRun past) :=
    fun i hi => replies_currentRun_skip rfl (hother i hi)
  have hreply : replyOf w.built.length (.enumerate w availability candidates) = some (availability,
      candidates) :=
    if_pos rfl
  constructor
  · rw [hrefreshes, replace_alone h.alone hw]
    exact le_refl _
  · rw [hsnapshot]
    exact h.shown
  · intro i hi
    rw [hnew, List.forall_mem_singleton, List.length_append, List.length_singleton] at hi
    unfold candidatesAt
    rw [hreplies i (by omega), hsnapshot]
    apply h.resting
    rw [hold, List.forall_mem_singleton]
    omega
  · rw [hnew, List.forall_mem_singleton]
    intro i b' hb'
    by_cases hi : i = w.built.length
    · subst hi
      obtain rfl : b = b' := by simpa using hb'
      refine ⟨provider, (availability, candidates), hprovider, ?_, ?_, ?_⟩
      · rw [replies_currentRun_concat rfl, h.unasked _ hmem _ (le_refl _), hreply]
        rfl
      · rw [replies_concat, hreply, Option.toList_some, List.getLast?_concat]
      · rw [replies_concat, hreply, Option.toList_some, lastGood_concat, hstate,
          lastGoodCandidates_at hdistinct h hprovider, h.resting]
        rw [hold, List.forall_mem_singleton]
    · have hlt : i < w.built.length := by
        have hlength := (List.getElem?_eq_some_iff.mp hb').1
        rw [List.length_append, List.length_singleton] at hlength
        omega
      rw [List.getElem?_append_left hlt] at hb'
      obtain ⟨provider', reply, hprovider', hrun, hlast, hstate'⟩ := h.built _ hmem i b' hb'
      exact ⟨provider', reply, hprovider', (hcurrent i hi).trans hrun,
        (hreplies i hi).symm ▸ hlast,
        (hreplies i hi).symm ▸ hstate'⟩
  · rw [hnew, List.forall_mem_singleton, List.length_append, List.length_singleton]
    intro i hi
    rw [hcurrent i (by omega)]
    exact h.unasked _ hmem i (by omega)

theorem candidatesAt_beyond (h : s.Retaining providers past) (hi : providers[i]? = none) :
    s.candidatesAt i = [] := by
  unfold candidatesAt
  cases hplace : s.snapshot[i]? with
  | none => rfl
  | some st =>
    obtain ⟨provider, hprovider, -⟩ := h.shown i st hplace
    rw [hi] at hprovider
    cases hprovider

theorem Retaining.store (h : s.Retaining providers past) {w : UpdatesRefresh} (hw : w ∈ s.refreshes)
    (hbuilt : w.built.length = providers.length) : (s.store w).Retaining providers
      (past ++ [.store w]) := by
  have hmem : w.built ∈ s.refreshes.map (·.built) := List.mem_map_of_mem hw
  have hrefreshes : (s.store w).refreshes = [] := by
    unfold Updates.store
    rw [alone_of_mem h.alone hw]
    simp
  have hreplies : ∀ i, replies i (past ++ [.store w]) = replies i past :=
    fun _ => replies_skip rfl
  constructor
  · rw [hrefreshes]
    exact Nat.zero_le _
  · intro i st hst
    have hmap : w.built[i]?.map (·.state) = some st := by rwa [← List.getElem?_map]
    obtain ⟨b, hb, rfl⟩ := Option.map_eq_some_iff.mp hmap
    obtain ⟨provider, reply, hprovider, -, -, hstate⟩ := h.built _ hmem i b hb
    exact ⟨provider, hprovider, by rw [hstate]; rfl⟩
  · intro i _
    rw [hreplies]
    cases hb : w.built[i]? with
    | none =>
      have hnone : providers[i]? = none := by
        rw [List.getElem?_eq_none_iff] at hb ⊢
        omega
      have hempty : (s.store w).candidatesAt i = [] := by
        unfold candidatesAt Updates.store
        simp [hb]
      rw [hempty, ← candidatesAt_beyond h hnone]
      apply h.resting
      rw [alone_of_mem h.alone hw]
      intro built hmem'
      rw [List.mem_singleton.mp hmem']
      exact List.getElem?_eq_none_iff.mp hb
    | some b =>
      obtain ⟨provider, reply, -, -, -, hstate⟩ := h.built _ hmem i b hb
      unfold candidatesAt Updates.store
      simp [hb, hstate, stateOf]
  · rw [hrefreshes]
    exact nofun
  · rw [hrefreshes]
    exact nofun

theorem Retaining.refresh (h : s.Retaining providers past) (hrest : s.refreshes = []) :
    ({ s with refreshes := ⟨[], none⟩ :: s.refreshes } : Updates).Retaining providers
      (past ++ [.refreshUpdates]) := by
  have hcurrent : currentRun (past ++ [.refreshUpdates]) = [] := by
    unfold currentRun
    exact List.rtakeWhile_concat_neg _ _ _ (by simp [isRefresh])
  have hreplies : ∀ i, replies i (past ++ [.refreshUpdates]) = replies i past :=
    fun _ => replies_skip rfl
  rw [hrest]
  constructor
  · exact le_refl _
  · exact h.shown
  · intro i _
    rw [hreplies]
    apply h.resting
    rw [hrest]
    exact nofun
  · intro built hbuilt i b hb
    rw [List.mem_singleton.mp hbuilt] at hb
    cases hb
  · intro built _ i _
    rw [hcurrent]
    rfl

theorem Retaining.step (hdistinct : (providers.map (·.providerId)).Nodup)
    (h : s.Retaining providers past)
    (hstep : s.step providers a = some s') (hturn : OneAfterAnother s a s') :
    s'.Retaining providers (past ++ [a]) := by
  cases step_cases hstep with
  | refreshUpdates => exact h.refresh (hturn rfl)
  | enumerate hw _ hprovider => exact h.enumerate hdistinct hw hprovider _ _
  | pendingActions hw _ => exact h.replaced hw rfl (fun _ => rfl) rfl rfl
  | @pendingReply w p e since reply hw _ =>
    cases reply with
    | error err => exact h.replaced hw rfl (fun _ => rfl) rfl rfl
    | ok actions => exact h.replaced hw rfl (fun _ => rfl) rfl rfl
  | upsertReported hw _ => exact h.replaced hw rfl (fun _ => rfl) rfl rfl
  | eraseUnreported hw _ => exact h.replaced hw rfl (fun _ => rfl) rfl rfl
  | keepUnreported hw _ => exact h.replaced hw rfl (fun _ => rfl) rfl rfl
  | store hw _ hbuilt => exact h.store hw hbuilt
  | installUpdate providerId candidateId release =>
    unfold installUpdate
    split_ifs
    · exact h.quiet rfl (fun _ => rfl) rfl rfl
    · exact h.quiet rfl (fun _ => rfl) rfl rfl
  | submit _ _ => exact h.quiet rfl (fun _ => rfl) rfl rfl
  | refuse _ _ => exact h.quiet rfl (fun _ => rfl) rfl rfl
  | releaseInstall _ _ => exact h.quiet rfl (fun _ => rfl) rfl rfl
  | installReturned _ _ => exact h.quiet rfl (fun _ => rfl) rfl rfl
  | startInstall _ _ =>
    unfold startInstall
    split
    · exact h.quiet rfl (fun _ => rfl) rfl rfl
    · split_ifs
      · exact h.quiet rfl (fun _ => rfl) rfl rfl
      · exact h.quiet rfl (fun _ => rfl) rfl rfl
  | @recordInstall w stamp outcome _ _ =>
    unfold recordInstall
    cases outcome with
    | error e => exact h.quiet rfl (fun _ => rfl) rfl rfl
    | ok outcome =>
      dsimp only
      split_ifs
      · exact h.quiet rfl (fun _ => rfl) rfl rfl
      · exact h.quiet rfl (fun _ => rfl) rfl rfl

def Refreshed (providers : List UpdateProvider) (actions : List Action) (t : Updates) : Prop :=
  ∃ w, runSome (step providers) start (actions ++ [.store w]) = some t ∧
    MeetsSome (step providers) OneAfterAnother start (actions ++ [.store w])

theorem Refreshed.due (hdistinct : (providers.map (·.providerId)).Nodup)
    (h : Refreshed providers actions t) :
    t.snapshot.length = providers.length ∧ ∀ i st, t.snapshot[i]? = some st →
    Due providers actions i st := by
  obtain ⟨w, hrun, hturn⟩ := h
  obtain ⟨s, hbefore, hstore⟩ := runSome_concat _ hrun
  have hs : s.Retaining providers actions :=
    runSome_history (I := Retaining providers) (step providers)
      (fun _ _ _ _ h hstep hc => h.step hdistinct hstep hc)
      retaining_start hbefore (meetsSome_of_append _ hturn)
  cases step_cases hstore with
  | store hw _ hbuilt =>
    refine ⟨(List.length_map _).trans hbuilt, ?_⟩
    intro i st hst
    have hmap : w.built[i]?.map (·.state) = some st := by rwa [← List.getElem?_map]
    obtain ⟨b, hb, rfl⟩ := Option.map_eq_some_iff.mp hmap
    exact hs.built _ (List.mem_map_of_mem hw) i b hb

/-- The last good candidates are retained, and no provider has a part in what is shown of
another. -/
theorem last_good_retained (providers : List UpdateProvider)
    (hdistinct : (providers.map (·.providerId)).Nodup) :
    (∀ actions t, Refreshed providers actions t → Retains providers actions t) ∧
    ∀ actions t actions' t' i, Refreshed providers actions t →
      Refreshed providers actions' t' →
      replies i actions = replies i actions' → t.snapshot[i]? = t'.snapshot[i]? := by
  constructor
  · intro actions t h i provider hprovider
    obtain ⟨hlength, hdue⟩ := h.due hdistinct
    have hi : i < t.snapshot.length := by
      rw [hlength]
      exact (List.getElem?_eq_some_iff.mp hprovider).1
    obtain ⟨st, hst⟩ : ∃ st, t.snapshot[i]? = some st := ⟨_, List.getElem?_eq_getElem hi⟩
    obtain ⟨provider', reply, hprovider', hrun, -, hstate⟩ := hdue i _ hst
    obtain rfl := Option.some.inj (hprovider.symm.trans hprovider')
    refine ⟨reply, _, hrun, hst, ?_⟩
    rw [hstate]
    exact ⟨rfl, rfl, refreshError_isSome reply⟩
  · intro actions t actions' t' i h h' hreplies
    obtain ⟨hlength, hdue⟩ := h.due hdistinct
    obtain ⟨hlength', hdue'⟩ := h'.due hdistinct
    by_cases hi : i < providers.length
    · obtain ⟨st, hst⟩ : ∃ st, t.snapshot[i]? = some st :=
        ⟨_, List.getElem?_eq_getElem (by omega)⟩
      obtain ⟨st', hst'⟩ : ∃ st', t'.snapshot[i]? = some st' :=
        ⟨_, List.getElem?_eq_getElem (by omega)⟩
      obtain ⟨provider, reply, hprovider, -, hlast, hstate⟩ := hdue i _ hst
      obtain ⟨provider', reply', hprovider', -, hlast', hstate'⟩ := hdue' i _ hst'
      obtain rfl := Option.some.inj (hprovider.symm.trans hprovider')
      rw [← hreplies, hlast] at hlast'
      obtain rfl := Option.some.inj hlast'
      rw [hst, hst', hstate, hstate', hreplies]
    · rw [List.getElem?_eq_none (by omega), List.getElem?_eq_none (by omega)]

section Failing

def firmware : List UpdateProvider := [⟨str "fwupd", true⟩]

def reachable : ProviderAvailability := ⟨true, none, none, []⟩

def dock : UpdateCandidate :=
  ⟨str "fwupd", str "d1", str "Dock", str "1", none, ⟨true, true, false⟩, [], []⟩

def timedOut : Error := ⟨.io, str "timeout"⟩

def builtOnce : List Built := [⟨1, 1, stateOf (str "fwupd") (reachable, .ok [dock]) [dock]⟩]

def builtTwice : List Built :=
  [⟨3, 1, stateOf (str "fwupd") (reachable, .error timedOut) [dock]⟩]

def failingRun : List Action :=
  [.refreshUpdates, .enumerate ⟨[], none⟩ reachable (.ok [dock]),
    .pendingActions ⟨builtOnce, some ⟨str "fwupd", true, .due⟩⟩,
    .pendingReply ⟨builtOnce, some ⟨str "fwupd", true, .querying 2⟩⟩ (.error timedOut),
    .store ⟨builtOnce, none⟩,
    .refreshUpdates, .enumerate ⟨[], none⟩ reachable (.error timedOut),
    .pendingActions ⟨builtTwice, some ⟨str "fwupd", false, .due⟩⟩,
    .pendingReply ⟨builtTwice, some ⟨str "fwupd", false, .querying 4⟩⟩ (.error timedOut)]

theorem dock_retained : ∃ t, Refreshed firmware failingRun t ∧
    Retains firmware failingRun t := by
  have hrefreshed : ∃ t, Refreshed firmware failingRun t := by
    refine ⟨_, ⟨builtTwice, none⟩, rfl, ?_⟩
    have hpasses : passes (step firmware) (fun s a _ => !isRefresh a || s.refreshes.isEmpty) start
        (failingRun ++ [.store ⟨builtTwice, none⟩]) = true := rfl
    refine meetsSome_of_passes (step firmware) ?_ hpasses
    intro s a s' htest ha
    rw [ha] at htest
    exact List.isEmpty_iff.mp htest
  obtain ⟨t, ht⟩ := hrefreshed
  exact ⟨t, ht, (last_good_retained firmware (by decide)).1 _ _ ht⟩

end Failing

end Updates

end DevMgr.App
