import DevMgr.App.Updates

/-!
# How long an update is pending

An install that is not completed leaves an entry behind. A reconcile takes
entries out that the provider does not report; where its query is older than the
install, the report says nothing about it.
-/

open DevMgr.Core

namespace DevMgr.App
open Bytes Observed Run

namespace Updates
variable {providers : List UpdateProvider} {s s' : Updates} {a : Action} {w : UpdatesRefresh}

theorem setPending_seeds {pending : List PendingAction} {key : Str × Str} {t : ℕ}
    (h : (s.setPending pending).seeds key = some t) : s.seeds key = some t := by
  unfold setPending at h
  dsimp only at h
  split_ifs at h
  exact h

/-- The report in the worker's hand names each entry of an install that had not returned when it was
asked for, if the worker is to erase what is not reported. -/
def Informed (s : Updates) (r : UpdatesRefresh) : Prop :=
  ∀ p since left actions, r.reconcile = some ⟨p, true, .reported since left actions⟩ →
    ∀ key t, s.seeds key = some t → key.1 = p → since ≤ t → key ∈ reportedKeys p actions

/-- A report asked for before an install of the provider returned names the installed device, as
soon as the report and the outcome are both there. -/
def Attentive (s : Updates) : Action → Updates → Prop
  | .pendingReply w (.ok actions), _ =>
    ∀ p since, w.reconcile = some ⟨p, true, .querying since⟩ →
      ∀ key t, s.seeds key = some t → key.1 = p → since ≤ t →
      key ∈ reportedKeys p actions
  | .recordInstall w, _ =>
    ∀ stamp outcome, w.stage = .returned stamp (.ok outcome) →
      outcome.disposition ≠ .completed →
      ∀ r ∈ s.refreshes, ∀ since left actions,
        r.reconcile = some ⟨w.providerId, true, .reported since left actions⟩ →
          since ≤ stamp →
          (w.providerId, w.candidateId) ∈ reportedKeys w.providerId actions
  | _, _ => True

/-- An entry of an install goes only where a reconcile erases it: its provider was enumerated, its
query started after the install had returned and was answered, and the answer does not name the
device. -/
def Evidence (s : Updates) (a : Action) (s' : Updates) : Prop :=
  ∀ key t, s.seeds key = some t → key ∈ s.pending.map pendingKey →
    key ∉ s'.pending.map pendingKey →
    ∃ w since actions, a = .eraseUnreported w ∧
      w.reconcile = some ⟨key.1, true, .reported since [] actions⟩ ∧ t < since ∧
      key ∉ reportedKeys key.1 actions

theorem Informed.mono {r : UpdatesRefresh} (h : s.Informed r)
    (hseeds : ∀ key t, s'.seeds key = some t → s.seeds key = some t) : s'.Informed r :=
  fun p since left actions hr key t ht => h p since left actions hr key t (hseeds key t ht)

theorem informed_keep (hinv : ∀ r ∈ s.refreshes, s.Informed r)
    (hrefreshes : ∀ r ∈ s'.refreshes, r ∈ s.refreshes ∨ s'.Informed r)
    (hseeds : ∀ key t, s'.seeds key = some t → s.seeds key = some t)
    (hpending : ∀ key ∈ s.pending.map pendingKey, key ∈ s'.pending.map pendingKey) :
    (∀ r ∈ s'.refreshes, s'.Informed r) ∧ s.Evidence a s' :=
  ⟨fun r hr => (hrefreshes r hr).elim (fun hold => (hinv r hold).mono hseeds) id,
    fun key _ _ hmem hgone => absurd (hpending key hmem) hgone⟩

theorem informed_of_stage {r : UpdatesRefresh}
    (h : ∀ p since left actions, r.reconcile ≠ some ⟨p, true,
      .reported since left actions⟩) :
    s.Informed r := fun p since left actions hr => absurd hr (h p since left actions)

theorem mem_upsertPending {pending : List PendingAction} {action : PendingAction} {key : Str × Str}
    (h : key ∈ pending.map pendingKey) :
    key ∈ (upsertPending pending action).map pendingKey := by
  obtain ⟨a, ha, rfl⟩ := List.mem_map.mp h
  by_cases hkey : pendingKey a = pendingKey action
  · rw [hkey]
    exact List.mem_cons_self
  · refine List.mem_cons_of_mem _ (List.mem_map.mpr ⟨a, List.mem_filter.mpr ⟨ha, ?_⟩, rfl⟩)
    exact decide_eq_true hkey

theorem mem_erasePendingNotIn {pending : List PendingAction} {p : Str} {reported : List (Str × Str)}
    {key : Str × Str} (h : key ∈ pending.map pendingKey) (hkey : key.1 ≠ p ∨ key ∈ reported) :
    key ∈ (erasePendingNotIn pending p reported).map pendingKey := by
  obtain ⟨a, ha, rfl⟩ := List.mem_map.mp h
  refine List.mem_map.mpr ⟨a, List.mem_filter.mpr ⟨ha, decide_eq_true ?_⟩, rfl⟩
  rintro ⟨hprovider, hunreported⟩
  exact hkey.elim (fun hne => hne hprovider) hunreported

theorem informed_replace (hinv : ∀ r ∈ s.refreshes, s.Informed r) {w' : UpdatesRefresh}
    (hrefreshes : s'.refreshes = (s.replace w w').refreshes)
    (hstage : ∀ p since left actions, w'.reconcile ≠ some ⟨p, true,
      .reported since left actions⟩)
    (hpending : s'.pending = s.pending) (hseeds : s'.seeds = s.seeds) :
    (∀ r ∈ s'.refreshes, s'.Informed r) ∧ s.Evidence a s' := by
  refine informed_keep hinv (fun r hr => ?_) (fun _ _ h => hseeds ▸ h) fun _ h =>
    hpending.symm ▸ h
  rw [hrefreshes] at hr
  rcases mem_replace hr with rfl | hold
  · exact .inr (informed_of_stage hstage)
  · exact .inl hold

theorem informed_same (hinv : ∀ r ∈ s.refreshes, s.Informed r)
    (hrefreshes : s'.refreshes ⊆ s.refreshes)
    (hpending : s'.pending = s.pending) (hseeds : s'.seeds = s.seeds) :
    (∀ r ∈ s'.refreshes, s'.Informed r) ∧ s.Evidence a s' :=
  informed_keep hinv (fun _ hr => .inl (hrefreshes hr)) (fun _ _ h => hseeds ▸ h)
    fun _ h => hpending.symm ▸ h

theorem informed_reported (hinv : ∀ r ∈ s.refreshes, s.Informed r) {p : Str} {e : Bool} {since : ℕ}
    {actions : List PendingAction} (hw : w.reconcile = some ⟨p, e, .querying since⟩)
    (hc : s.Attentive (.pendingReply w (.ok actions)) s') :
    (∀ r ∈
      (s.replace w ⟨w.built, some ⟨p, e, .reported since actions actions⟩⟩).refreshes,
      (s.replace w ⟨w.built, some ⟨p, e, .reported since actions actions⟩⟩).Informed r) ∧
    s.Evidence a (s.replace w ⟨w.built, some ⟨p, e, .reported since actions actions⟩⟩) := by
  refine informed_keep hinv (fun r hr => (mem_replace hr).symm.imp_right ?_)
    (fun _ _ h => h) fun _ h => h
  rintro rfl p' since' left actions' hstage
  cases hstage
  exact hc _ _ hw

theorem informed_upsert (hinv : ∀ r ∈ s.refreshes, s.Informed r) {p : Str} {e : Bool} {since : ℕ}
    {action : PendingAction} {left actions : List PendingAction} (hmem : w ∈ s.refreshes)
    (hw : w.reconcile = some ⟨p, e, .reported since (action :: left) actions⟩)
    (hs' : s' =
      (s.replace w ⟨w.built, some ⟨p, e, .reported since left actions⟩⟩).setPending
      (upsertPending s.pending { action with providerId := p })) :
    (∀ r ∈ s'.refreshes, s'.Informed r) ∧ s.Evidence a s' := by
  subst hs'
  refine informed_keep hinv (fun r hr => (mem_replace hr).symm.imp_right ?_)
    (fun _ _ => setPending_seeds) fun _ => mem_upsertPending
  rintro rfl p' since' left' actions' hstage key t hseed
  cases hstage
  exact hinv w hmem _ _ _ _ hw key t (setPending_seeds hseed)

theorem informed_erase (hinv : ∀ r ∈ s.refreshes, s.Informed r) {p : Str} {since : ℕ}
    {actions : List PendingAction} (hmem : w ∈ s.refreshes)
    (hw : w.reconcile = some ⟨p, true, .reported since [] actions⟩)
    (hs' : s' = (s.replace w ⟨w.built, none⟩).setPending
      (erasePendingNotIn s.pending p (reportedKeys p actions))) :
    (∀ r ∈ s'.refreshes, s'.Informed r) ∧ s.Evidence (.eraseUnreported w) s' := by
  subst hs'
  refine ⟨fun r hr => ?_, fun key t hseed hpending hgone => ?_⟩
  · rcases mem_replace hr with rfl | hold
    · exact informed_of_stage nofun
    · exact (hinv r hold).mono fun _ _ => setPending_seeds
  · obtain rfl : key.1 = p := by
      by_contra hother
      exact hgone (mem_erasePendingNotIn hpending (.inl hother))
    have hunreported : key ∉ reportedKeys key.1 actions :=
      fun hreported => hgone (mem_erasePendingNotIn hpending (.inr hreported))
    refine ⟨w, since, actions, rfl, hw, ?_, hunreported⟩
    by_contra hstale
    exact hunreported (hinv w hmem _ _ _ _ hw key t hseed rfl (Nat.le_of_not_lt hstale))

theorem informed_record (hinv : ∀ r ∈ s.refreshes, s.Informed r) {w : Install} {stamp : ℕ}
    {outcome : Result InstallOutcome} (hw : w.stage = .returned stamp outcome)
    (hc : s.Attentive (.recordInstall w) s') :
    (∀ r ∈ (s.recordInstall w stamp outcome).refreshes,
      (s.recordInstall w stamp outcome).Informed r) ∧
      s.Evidence a (s.recordInstall w stamp outcome) := by
  unfold recordInstall
  cases outcome with
  | error e => exact informed_same hinv (fun _ h => h) rfl rfl
  | ok outcome =>
    dsimp only
    by_cases hcompleted : outcome.disposition = .completed
    · rw [if_pos hcompleted]
      exact informed_same hinv (fun _ h => h) rfl rfl
    · rw [if_neg hcompleted]
      refine ⟨fun r hr p since left actions hstage key t hseed hkey hle => ?_,
        fun key t _ hpending hgone => absurd (mem_upsertPending hpending) hgone⟩
      change Function.update s.seeds (w.providerId, w.candidateId)
        (some stamp) key = some t at hseed
      by_cases hsame : key = (w.providerId, w.candidateId)
      · subst hsame hkey
        rw [Function.update_self] at hseed
        obtain rfl : stamp = t := Option.some.inj hseed
        exact hc stamp outcome hw hcompleted r hr since left actions hstage hle
      · rw [Function.update_of_ne hsame] at hseed
        exact hinv r hr p since left actions hstage key t hseed hkey hle

theorem informed_step (hinv : ∀ r ∈ s.refreshes, s.Informed r)
    (hstep : s.step providers a = some s')
    (hc : s.Attentive a s') : (∀ r ∈ s'.refreshes, s'.Informed r) ∧ s.Evidence a s' := by
  cases step_cases hstep with
  | refreshUpdates =>
    refine informed_keep hinv (fun r hr => ?_) (fun _ _ h => h) fun _ h => h
    rcases List.mem_cons.mp hr with rfl | hold
    · exact .inr (informed_of_stage nofun)
    · exact .inl hold
  | enumerate hmem _ _ =>
    obtain ⟨b, reconcile, hrefreshes, hreconcile, hpending, hseeds⟩ :=
      enumerate_spec (s := s) _ _ _ _
    refine informed_replace hinv hrefreshes (fun p since left actions h => ?_) hpending hseeds
    rcases hreconcile with hnone | ⟨e, hdue⟩
    · exact nomatch hnone.symm.trans h
    · exact nomatch hdue.symm.trans h
  | pendingActions _ _ => exact informed_replace hinv rfl nofun rfl rfl
  | @pendingReply w p e since reply _ hw =>
    cases reply with
    | error err => exact informed_replace hinv rfl nofun rfl rfl
    | ok actions => exact informed_reported hinv hw hc
  | upsertReported hmem hw => exact informed_upsert hinv hmem hw rfl
  | eraseUnreported hmem hw => exact informed_erase hinv hmem hw rfl
  | keepUnreported _ _ => exact informed_replace hinv rfl nofun rfl rfl
  | store _ _ _ => exact informed_same hinv (List.erase_subset ..) rfl rfl
  | installUpdate providerId candidateId release =>
    unfold installUpdate
    split_ifs <;> exact informed_same hinv (fun _ h => h) rfl rfl
  | submit _ _ => exact informed_same hinv (fun _ h => h) rfl rfl
  | refuse _ _ => exact informed_same hinv (fun _ h => h) rfl rfl
  | startInstall _ _ =>
    unfold startInstall
    split
    · exact informed_same hinv (fun _ h => h) rfl rfl
    · split_ifs <;> exact informed_same hinv (fun _ h => h) rfl rfl
  | installReturned _ _ => exact informed_same hinv (fun _ h => h) rfl rfl
  | recordInstall _ hw => exact informed_record hinv hw hc
  | releaseInstall _ _ => exact informed_same hinv (fun _ h => h) rfl rfl

/-- In a run whose reports are attentive, an entry of an install is erased on evidence only. -/
theorem seeds_erased_on_evidence (providers : List UpdateProvider) (actions : List Action)
    (hattentive : MeetsSome (step providers) Attentive start actions) :
    MeetsSome (step providers) Evidence start actions :=
  meetsSome_of_invariant (I := fun s => ∀ r ∈ s.refreshes, s.Informed r) (step providers)
    (fun _ _ _ hinv hstep hc => informed_step hinv hstep hc) (fun _ hr => nomatch hr) hattentive

section Fwupd

def fwupd : List UpdateProvider := [⟨str "fwupd", true⟩]

def available : ProviderAvailability := ⟨true, none, none, []⟩

def needsReboot : InstallOutcome :=
  ⟨.needsReboot, true, some (str "2"), str "reboot required to apply 2"⟩

def task (stage : InstallStage) : Install :=
  ⟨str "fwupd", str "a1", ⟨str "r", str "c"⟩, stage⟩

def enumerated (stamp : ℕ) : List Built :=
  [⟨stamp, stamp, ⟨str "fwupd", available, [], none⟩⟩]

def reconciledRun : List Action :=
  [.installUpdate (str "fwupd") (str "a1") ⟨str "r", str "c"⟩, .submit (task .claimed) true,
    .startInstall (task .submitted), .installReturned (task .running) (.ok needsReboot),
    .recordInstall (task (.returned 1 (.ok needsReboot))), .releaseInstall (task .recorded),
    .refreshUpdates, .enumerate ⟨[], none⟩ available (.ok []),
    .pendingActions ⟨enumerated 2, some ⟨str "fwupd", true, .due⟩⟩,
    .pendingReply ⟨enumerated 2, some ⟨str "fwupd", true, .querying 3⟩⟩ (.ok []),
    .eraseUnreported ⟨enumerated 2, some ⟨str "fwupd", true, .reported 3 [] []⟩⟩]

theorem reconciled_attentive : MeetsSome (step fwupd) Attentive start reconciledRun := by
  refine meetsSome_cons _ (step_of (.installUpdate ..)) trivial
    (meetsSome_cons _ (step_of (.submit (.head _) rfl)) trivial
    (meetsSome_cons _ (step_of (.startInstall (.head _) rfl)) trivial
    (meetsSome_cons _ (step_of (.installReturned (.head _) rfl)) trivial
    (meetsSome_cons _ (step_of (.recordInstall (.head _) rfl)) ?_
    (meetsSome_cons _ (step_of (.releaseInstall (.head _) rfl)) trivial
    (meetsSome_cons _ (step_of .refreshUpdates) trivial
    (meetsSome_cons _ (step_of (.enumerate (.head _) rfl rfl)) trivial
    (meetsSome_cons _ (step_of (.pendingActions (.head _) rfl)) trivial
    (meetsSome_cons _ (step_of (.pendingReply (.head _) rfl)) ?_
    (meetsSome_cons _ (step_of (.eraseUnreported (.head _) rfl)) trivial trivial))))))))))
  · exact fun _ _ _ _ r hr => nomatch hr
  · rintro p since hw key t hseed - hle
    cases hw
    have ht : t = 1 := by
      have hupdated : Function.update (fun _ => none) (str "fwupd", str "a1")
          (some 1) key = some t := hseed
      by_cases hkey : key = (str "fwupd", str "a1")
      · rw [hkey, Function.update_self] at hupdated
        exact (Option.some.inj hupdated).symm
      · rw [Function.update_of_ne hkey] at hupdated
        cases hupdated
    rw [ht] at hle
    exact absurd hle (by decide)

theorem reconciled_on_evidence : MeetsSome (step fwupd) Evidence start reconciledRun ∧
    (runSome (step fwupd) start reconciledRun).map (·.pending) = some [] :=
  ⟨seeds_erased_on_evidence fwupd reconciledRun reconciled_attentive, by decide⟩

theorem seed_erased_by_older_query :
    ¬ ∀ providers actions, MeetsSome (step providers) Evidence start actions := by
  intro hall
  have h := hall fwupd
    [.refreshUpdates, .enumerate ⟨[], none⟩ available (.ok []),
      .installUpdate (str "fwupd") (str "a1") ⟨str "r", str "c"⟩, .submit (task .claimed) true,
      .startInstall (task .submitted),
      .pendingActions ⟨enumerated 1, some ⟨str "fwupd", true, .due⟩⟩,
      .pendingReply ⟨enumerated 1, some ⟨str "fwupd", true, .querying 2⟩⟩ (.ok []),
      .installReturned (task .running) (.ok needsReboot),
      .recordInstall (task (.returned 3 (.ok needsReboot))),
      .eraseUnreported ⟨enumerated 1, some ⟨str "fwupd", true, .reported 2 [] []⟩⟩]
  obtain ⟨-, h⟩ := h _ (step_of .refreshUpdates)
  obtain ⟨-, h⟩ := h _ (step_of (.enumerate (.head _) rfl rfl))
  obtain ⟨-, h⟩ := h _ (step_of (.installUpdate ..))
  obtain ⟨-, h⟩ := h _ (step_of (.submit (.head _) rfl))
  obtain ⟨-, h⟩ := h _ (step_of (.startInstall (.head _) rfl))
  obtain ⟨-, h⟩ := h _ (step_of (.pendingActions (.head _) rfl))
  obtain ⟨-, h⟩ := h _ (step_of (.pendingReply (.head _) rfl))
  obtain ⟨-, h⟩ := h _ (step_of (.installReturned (.head _) rfl))
  obtain ⟨-, h⟩ := h _ (step_of (.recordInstall (.head _) rfl))
  obtain ⟨hevidence, -⟩ := h _ (step_of (.eraseUnreported (.head _) rfl))
  obtain ⟨w, since, actions, haction, hw, hlater, -⟩ :=
    hevidence (str "fwupd", str "a1") 3 (by decide) (.head _) (by decide)
  cases haction
  cases hw
  exact absurd hlater (by decide)

end Fwupd

end Updates

end DevMgr.App
