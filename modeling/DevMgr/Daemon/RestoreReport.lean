import DevMgr.Core.SnapshotPresentation
import DevMgr.Daemon.EnforcementTurns
import DevMgr.Daemon.Undo

/-!
# What a restore reports

A restore goes through the files that differ, the entries the snapshot lacks and
the entries it has, and makes one item for each of them in the state the steps
before have left. The item of a step says how its one write went. The files are
those of the two payloads, and the snapshot's may have any name.
-/

open DevMgr.Core

namespace DevMgr.Daemon
open Bytes Program

variable {H : Type}

section Told
variable (J : Json.Codec) (P : Platform H) (faults : ℕ → Faults) (t : Thread)

structure Attempted (o : Op) (worked : o.Ret → Prop) (item : RestoreItemOutcome)
    (s s' : State (Machine H)) : Prop where
  state : s' = (Machine.respond J P faults t o s).2
  status : item.status = kStatusOk ∧ worked (Machine.respond J P faults t o s).1 ∨
    item.status = kStatusFailed ∧ ¬ worked (Machine.respond J P faults t o s).1

structure RemovalTold (file : Str × Str) (item : RestoreItemOutcome) (s s' : State (Machine H)) :
    Prop where
  subject : item.subject = file.1
  action : item.action = str "modprobe-remove"
  attempted : Attempted J P faults t (.removeModprobe file.1) (fun error => error = none) item s s'

structure WriteTold (file : Str × Str) (item : RestoreItemOutcome) (s s' : State (Machine H)) :
    Prop where
  subject : item.subject = file.1
  action : item.action = str "modprobe-write"
  attempted : Attempted J P faults t (.writeModprobe file.1 file.2)
    (fun written => written = .ok ()) item s s'

structure EnableTold (all : List Device) (e : DisabledDeviceEntry) (item : RestoreItemOutcome)
    (s s' : State (Machine H)) : Prop where
  action : item.action = str "re-enable"
  subject : item.subject = e.lastSysfsPath ∨ ∃ device ∈ all, FoundFor e device ∧
    item.subject = device.sysfsPath
  how : item.status = kStatusDeviceAbsent ∧ s' = s ∨
    Attempted J P faults t (.setEnabled none item.subject true e.lastDriver)
      (fun applied => ∃ driver, applied = .ok driver) item s s'

def SuspensionStored (key : DeviceKey) (s : State (Machine H)) : Prop :=
  ∃ e, s.entries.find? (fun e => e.key = key) = some e ∧ e.guardSuspended = true ∧
    s.world.stateDir[str "state.json"]? = some (J.dumpIndented (StateStore.document s.entries))

def Converged (all : List Device) (e : DisabledDeviceEntry) (item : RestoreItemOutcome)
    (s : State (Machine H)) : Prop :=
  ∃ device, Located J (Machine.platform J P faults) t all e s device ∧
    item.subject = device.sysfsPath ∧ (needsApply e device = false ∨
      ∃ driver, (Machine.respond J P faults t
        (.setEnabled (some ⟨e, device⟩) device.sysfsPath false []) s).1 = .ok driver)

def RefusalStored (all : List Device) (e : DisabledDeviceEntry) (item : RestoreItemOutcome)
    (s s' : State (Machine H)) : Prop :=
  ∃ device, Located J (Machine.platform J P faults) t all e s device ∧
    item.subject = device.sysfsPath ∧
    ¬ Allowed (Machine.platform J P faults) s device.sysfsPath ∧
    SuspensionStored J e.key s'

structure ApplyTold (all : List Device) (e : DisabledDeviceEntry) (item : RestoreItemOutcome)
    (s s' : State (Machine H)) : Prop where
  ran : (run (Machine.respond J P faults t) (reApplyEntry all e) s).value = some [item] ∧
    (run (Machine.respond J P faults t) (reApplyEntry all e) s).state = s'
  action : item.action = str "re-apply-disable"
  how : item.status = kStatusFailed ∨
    item.status = kStatusDeviceAbsent ∧
      (∀ device, ¬ Located J (Machine.platform J P faults) t all e s device) ∨
    item.status = kStatusOk ∧ Converged J P faults t all e item s ∨
    item.status = kStatusGuardRefused ∧ RefusalStored J P faults t all e item s s'

end Told

section Loops
variable {J : Json.Codec} {P : Platform H} {faults : ℕ → Faults} {t : Thread}
  {s : State (Machine H)}

theorem leaves_removals_told (target : SnapshotPayload) (files : List (Str × Str)) :
    Leaves (Machine.respond J P faults t) (removeModprobeFiles target files) s fun items s' =>
      Threaded (RemovalTold J P faults t)
        (files.filter fun file => file.1 ∉ target.modprobeFiles) items s s' := by
  refine leaves_collect_threaded (fun file s hkept => ?_) (fun file s hlost => ?_) files
  · dsimp only
    rw [if_pos (not_not.mp hkept)]
    exact leaves_pure.mpr ⟨rfl, rfl⟩
  · dsimp only
    rw [if_neg hlost]
    refine leaves_bind.mpr (leaves_call.mpr (leaves_pure.mpr ⟨_, rfl, rfl, rfl, rfl, ?_⟩))
    cases (Machine.respond J P faults t (.removeModprobe file.1) s).1 with
    | none => exact .inl ⟨rfl, rfl⟩
    | some message => exact .inr ⟨rfl, nofun⟩

theorem leaves_writes_told (pre : SnapshotPayload) (files : List (Str × Str)) :
    Leaves (Machine.respond J P faults t) (writeModprobeFiles pre files) s fun items s' =>
      Threaded (WriteTold J P faults t)
        (files.filter fun file => pre.modprobeFiles[file.1]? ≠ some file.2) items s s' := by
  refine leaves_collect_threaded (fun file s hsame => ?_) (fun file s hother => ?_) files
  · dsimp only
    rw [if_pos (not_not.mp hsame)]
    exact leaves_pure.mpr ⟨rfl, rfl⟩
  · dsimp only
    rw [if_neg hother]
    refine leaves_bind.mpr (leaves_call.mpr (leaves_pure.mpr ⟨_, rfl, rfl, rfl, rfl, ?_⟩))
    cases (Machine.respond J P faults t (.writeModprobe file.1 file.2) s).1 with
    | ok u => exact .inl ⟨rfl, rfl⟩
    | error error => exact .inr ⟨rfl, nofun⟩

theorem leaves_resolvePathFor (e : DisabledDeviceEntry) (all : List Device) :
    Leaves (Machine.respond J P faults t) (resolvePathFor e all) s fun path s' => s' = s ∧
      (path = [] ∨ path = e.lastSysfsPath ∨
        ∃ device ∈ all, FoundFor e device ∧ path = device.sysfsPath) := by
  unfold resolvePathFor
  cases hfound : all.find? fun device => FoundFor e device with
  | some device =>
    refine leaves_pure.mpr ⟨rfl,
      .inr (.inr ⟨device, List.mem_of_find?_eq_some hfound, ?_, rfl⟩)⟩
    simpa using List.find?_some hfound
  | none =>
    dsimp only
    split_ifs
    · exact leaves_pure.mpr ⟨rfl, .inl rfl⟩
    · refine leaves_bind.mpr (leaves_call.mpr ?_)
      split_ifs
      · exact leaves_pure.mpr ⟨rfl, .inr (.inl rfl)⟩
      · exact leaves_pure.mpr ⟨rfl, .inl rfl⟩

theorem leaves_reEnableOne (e : DisabledDeviceEntry) (all : List Device) :
    Leaves (Machine.respond J P faults t) (reEnableOne e all) s
      fun item s' => EnableTold J P faults t all e item s s' := by
  refine leaves_bind.mpr ((leaves_resolvePathFor e all).mono ?_)
  rintro path s ⟨rfl, hresolved⟩
  split_ifs with hpath
  · exact leaves_pure.mpr ⟨rfl, .inl rfl, .inl ⟨rfl, rfl⟩⟩
  · have hsubject := hresolved.resolve_left hpath
    refine leaves_bind.mpr (leaves_call.mpr ?_)
    generalize hcalled : Machine.respond J P faults t
        (.setEnabled none path true e.lastDriver) s = called
    obtain ⟨applied, s'⟩ := called
    cases applied with
    | ok driver =>
      refine leaves_pure.mpr ⟨rfl, hsubject, .inr ⟨?_, .inl ⟨rfl, ?_⟩⟩⟩
      · rw [hcalled]
      · rw [hcalled]
        exact ⟨driver, rfl⟩
    | error error =>
      refine leaves_pure.mpr ⟨rfl, hsubject, .inr ⟨?_, .inr ⟨rfl, ?_⟩⟩⟩
      · rw [hcalled]
      · rw [hcalled]
        exact nofun

theorem leaves_reEnables_told (pre target : SnapshotPayload) :
    Leaves (Machine.respond J P faults t) (reEnableRemoved pre target) s fun items s' =>
      Threaded (EnableTold J P faults t (present (Machine.platform J P faults) s))
        (pre.entries.filter fun e => ¬ containsKey target.entries e.key) items s s' := by
  refine leaves_bind.mpr (leaves_present.mono ?_)
  rintro _ s ⟨rfl, rfl⟩
  refine leaves_collect_threaded (fun e s hkept => ?_) (fun e s hlost => ?_) pre.entries
  · rw [if_pos (not_not.mp hkept)]
    exact leaves_pure.mpr ⟨rfl, rfl⟩
  · rw [if_neg hlost]
    exact leaves_bind.mpr ((leaves_reEnableOne e _).mono fun item s' hitem =>
      leaves_pure.mpr ⟨item, rfl, hitem⟩)

theorem leaves_reEnableRemoved_kept (pre target : SnapshotPayload) :
    Leaves (Machine.respond J P faults t) (reEnableRemoved pre target) s fun _ s' =>
      s'.entries = s.entries := by
  have honly : Only (fun o : Op => o.Sees ∨ ∃ path hint, o = .setEnabled none path true hint)
      (reEnableRemoved pre target) :=
    only_reEnableRemoved (fun _ => .inl) fun path hint => .inr ⟨path, hint, rfl⟩
  refine leaves_only honly ?_ rfl
  rintro o s' (hsees | ⟨path, hint, rfl⟩) hs'
  · rw [respond_reads J _ o s' (.inl hsees)]
    exact hs'
  · exact hs'

theorem update_find? {key : DeviceKey} {f : DisabledDeviceEntry → DisabledDeviceEntry}
    {entries entries' : List DisabledDeviceEntry} (hf : ∀ e, (f e).key = e.key)
    (h : StateStore.update key f entries = some entries') :
    ∃ e, entries'.find? (fun e => e.key = key) = some (f e) := by
  obtain ⟨first, e, rest, -, rfl, hkey, hfirst⟩ := update_split h
  have hnone : first.find? (fun e => e.key = key) = none :=
    List.find?_eq_none.mpr fun e he => by simpa using hfirst e he
  exact ⟨e, by
    rw [List.find?_append, hnone, Option.none_or,
      List.find?_cons_of_pos (by simpa [hf] using hkey)]⟩

theorem writeState_stored {w : Machine H} {content : Str}
    (h : (Machine.writeState faults w content).1 = .ok ()) :
    (Machine.writeState faults w content).2.stateDir[str "state.json"]? = some content := by
  have hdir : (Machine.writeState faults w content).2.stateDir =
      renamed w.stateDir (str "state.json") content := atomicWriteFile_ok (Prod.ext h rfl)
  rw [hdir, renamed_self]

theorem suspensionStored {key : DeviceKey}
    (h : (Machine.respond J P faults t (.setGuardSuspended key true) s).1 = some (.ok ())) :
    SuspensionStored J key (Machine.respond J P faults t (.setGuardSuspended key true) s).2 := by
  change (s.updateEntry J (Machine.platform J P faults) key fun e =>
    { e with guardSuspended := true }).1 = some (.ok ()) at h
  change SuspensionStored J key (s.updateEntry J (Machine.platform J P faults) key fun e =>
    { e with guardSuspended := true }).2
  unfold State.updateEntry at h ⊢
  cases hupdate : StateStore.update key (fun e => { e with guardSuspended := true }) s.entries with
  | none =>
    rw [hupdate] at h
    exact absurd h (by simp [makeError])
  | some entries =>
    rw [hupdate] at h
    dsimp only at h ⊢
    by_cases htext : (StateStore.document entries).isText = true
    · rw [save_text htext] at h ⊢
      obtain ⟨e, he⟩ :=
        update_find? (f := fun e => { e with guardSuspended := true }) (fun _ => rfl)
          hupdate
      exact ⟨_, he, rfl, writeState_stored (Option.some.inj h)⟩
    · exact absurd h (by simp [State.save, htext])

theorem leaves_reApplyRefused {entry : DisabledDeviceEntry} {device : Device}
    {verdict : GuardVerdict} :
    Leaves (Machine.respond J P faults t) (reApplyRefused entry device verdict) s fun item s' =>
      item.subject = device.sysfsPath ∧ item.action = str "re-apply-disable" ∧
        (item.status = kStatusFailed ∨
          item.status = kStatusGuardRefused ∧ SuspensionStored J entry.key s') := by
  refine leaves_bind.mpr (leaves_bind.mpr (leaves_call.mpr (leaves_orRaise.mpr ?_)))
  intro result hresult
  cases result with
  | error error => exact leaves_pure.mpr ⟨rfl, rfl, .inl rfl⟩
  | ok u => exact leaves_pure.mpr ⟨rfl, rfl, .inr ⟨rfl, suspensionStored hresult⟩⟩

theorem leaves_reApplyWrite {entry : DisabledDeviceEntry} {device : Device} :
    Leaves (Machine.respond J P faults t) (reApplyWrite entry device) s fun item _ =>
      item.subject = device.sysfsPath ∧ item.action = str "re-apply-disable" ∧
        (item.status = kStatusFailed ∨ item.status = kStatusOk ∧
          ∃ driver, (Machine.respond J P faults t
            (.setEnabled (some ⟨entry, device⟩) device.sysfsPath false []) s).1 =
            .ok driver) := by
  refine leaves_bind.mpr (leaves_call.mpr ?_)
  cases hwritten : (Machine.respond J P faults t
      (.setEnabled (some ⟨entry, device⟩) device.sysfsPath false []) s).1 with
  | error error => exact leaves_pure.mpr ⟨rfl, rfl, .inl rfl⟩
  | ok driver =>
    have hdone : ∀ s', Leaves (Machine.respond J P faults t)
        (pure (reApplyOutcome device (str "ok") []) : Prog daemon RestoreItemOutcome) s'
          fun item _ =>
          item.subject = device.sysfsPath ∧ item.action = str "re-apply-disable" ∧
            (item.status = kStatusFailed ∨ item.status = kStatusOk ∧ ∃ driver',
              (Except.ok driver : Result (Option Str)) = .ok driver') :=
      fun s' => leaves_pure.mpr ⟨rfl, rfl, .inr ⟨rfl, driver, rfl⟩⟩
    dsimp only
    split_ifs
    · exact leaves_bind.mpr fun _ _ => leaves_bind.mpr fun _ _ => hdone _
    · exact leaves_bind.mpr fun _ _ => hdone _
    · exact leaves_bind.mpr fun _ _ => hdone _
    · exact hdone _

theorem leaves_behindGuard {α : Type} {entry : DisabledDeviceEntry} {device : Device} {done : α}
    {failed : Error → α} {refused : GuardVerdict → Prog daemon α} {write : Prog daemon α}
    {Q : α → State (Machine H) → Prop} (hdone : needsApply entry device = false → Q done s)
    (hfailed : ∀ error, Q (failed error) s)
    (hrefused : ¬ Allowed (Machine.platform J P faults) s device.sysfsPath → ∀ verdict,
      Leaves (Machine.respond J P faults t) (refused verdict) s Q)
    (hwrite : Leaves (Machine.respond J P faults t) write s Q) :
    Leaves (Machine.respond J P faults t)
      (behindGuard entry device done failed refused write) s Q := by
  unfold behindGuard
  by_cases hneeds : needsApply entry device = true
  · rw [if_neg (not_not.mpr hneeds)]
    refine leaves_bind.mpr (leaves_call.mpr ?_)
    change Leaves _ (match Platform.probe (Machine.platform J P faults) s.world with
      | .error error => pure (failed error)
      | .ok facts => _) s Q
    rw [Platform.probe]
    cases Platform.probeError (Machine.platform J P faults) s.world with
    | some error => exact leaves_pure.mpr (hfailed error)
    | none =>
      dsimp only
      split_ifs with hverdict
      · exact hwrite
      · exact hrefused hverdict _
  · rw [if_pos hneeds]
    exact leaves_pure.mpr (hdone (by simpa using hneeds))

theorem leaves_reApplyOne {all : List Device} {e : DisabledDeviceEntry} {device : Device}
    (hlocated : Located J (Machine.platform J P faults) t all e s device) :
    Leaves (Machine.respond J P faults t) (reApplyOne e device) s fun item s' =>
      item.action = str "re-apply-disable" ∧ (item.status = kStatusFailed ∨
        item.status = kStatusOk ∧ Converged J P faults t all e item s ∨
        item.status = kStatusGuardRefused ∧ RefusalStored J P faults t all e item s s') := by
  rw [reApplyOne_eq]
  refine leaves_behindGuard (fun hsettled => ?_) (fun error => ⟨rfl, .inl rfl⟩)
    (fun hrefused verdict => ?_) ?_
  · exact ⟨rfl, .inr (.inl ⟨rfl, device, hlocated, rfl, .inl hsettled⟩)⟩
  · refine leaves_reApplyRefused.mono fun item s' ⟨hsubject, haction, hstatus⟩ =>
      ⟨haction, ?_⟩
    rcases hstatus with hfailed | ⟨hstatus, hstored⟩
    · exact .inl hfailed
    · exact .inr (.inr ⟨hstatus, device, hlocated, hsubject, hrefused, hstored⟩)
  · refine leaves_reApplyWrite.mono fun item s' ⟨hsubject, haction, hstatus⟩ =>
      ⟨haction, ?_⟩
    rcases hstatus with hfailed | ⟨hstatus, hwritten⟩
    · exact .inl hfailed
    · exact .inr (.inl ⟨hstatus, device, hlocated, hsubject, .inr hwritten⟩)

theorem leaves_reApplyEntry (all : List Device) (e : DisabledDeviceEntry) :
    Leaves (Machine.respond J P faults t) (reApplyEntry all e) s fun items s' =>
      ∃ item, items = [item] ∧ ApplyTold J P faults t all e item s s' := by
  intro items hitems
  obtain ⟨found, hfound, hrest⟩ := (run_bind_value _).mp hitems
  have hstate : (run (Machine.respond J P faults t) (reApplyEntry all e) s).state = _ :=
    run_bind_state _ hfound
  rw [run_locate_state] at hrest hstate
  cases found with
  | none =>
    obtain rfl := Option.some.inj hrest
    refine ⟨_, rfl, ⟨hitems, rfl⟩, rfl, .inr (.inl ⟨rfl, fun device hlocated => ?_⟩)⟩
    exact absurd (Option.some.inj (hfound.symm.trans hlocated)) nofun
  | some device =>
    obtain ⟨item, hitem, hpure⟩ := (run_bind_value _).mp hrest
    obtain rfl := Option.some.inj hpure
    obtain ⟨haction, hhow⟩ := leaves_reApplyOne hfound item hitem
    refine ⟨item, rfl, ⟨hitems, rfl⟩, haction, ?_⟩
    rw [hstate, run_bind_state _ hitem]
    exact hhow.imp_right .inr

theorem leaves_applies_told (all : List Device) (entries : List DisabledDeviceEntry) :
    Leaves (Machine.respond J P faults t) (collect (reApplyEntry all) entries) s fun items s' =>
      Threaded (ApplyTold J P faults t all) entries items s s' := by
  have hall : (entries.filter fun _ => decide True) = entries :=
    List.filter_eq_self.mpr fun _ _ => rfl
  have htold : Leaves (Machine.respond J P faults t) (collect (reApplyEntry all) entries) s
      fun items s' => Threaded (ApplyTold J P faults t all) (entries.filter fun _ => decide True)
        items s s' :=
    leaves_collect_threaded (fun _ _ h => absurd trivial h)
      (fun e _ _ => leaves_reApplyEntry all e) entries
  rwa [hall] at htold

theorem leaves_reApplies_told :
    Leaves (Machine.respond J P faults t) reApplyRestored s fun items s' =>
      Threaded (ApplyTold J P faults t (present (Machine.platform J P faults) s))
        s.entries items s s' := by
  refine leaves_bind.mpr (leaves_present.mono ?_)
  rintro _ s ⟨rfl, rfl⟩
  exact leaves_bind.mpr (leaves_call.mpr (leaves_applies_told _ _))

end Loops

section Report
variable (J : Json.Codec) (P : Platform H) (faults : ℕ → Faults) (t : Thread)

/-- From the state with the entries of the target on, the items are those of the four loops. -/
def ToldFrom (pre target : SnapshotPayload) (s : State (Machine H))
    (items : List RestoreItemOutcome) (s' : State (Machine H)) : Prop :=
  ∃ removed written enabled applied s₁ s₂ s₃, items = removed ++ written ++
    enabled ++ applied ∧
    Threaded (RemovalTold J P faults t)
      (pre.modprobeFiles.toList.filter fun file => file.1 ∉ target.modprobeFiles)
        removed s s₁ ∧
    Threaded (WriteTold J P faults t)
      (target.modprobeFiles.toList.filter fun file => pre.modprobeFiles[file.1]? ≠ some file.2)
      written s₁ s₂ ∧
    Threaded (EnableTold J P faults t (present (Machine.platform J P faults) s₂))
      (pre.entries.filter fun e => ¬ containsKey target.entries e.key) enabled s₂ s₃ ∧
    Threaded (ApplyTold J P faults t (present (Machine.platform J P faults) s₃))
      target.entries applied s₃ s'

variable {J P faults t} {s : State (Machine H)}

theorem leaves_writeBack_told (id safety : Str) (pre target : SnapshotPayload) :
    Leaves (Machine.respond J P faults t) (writeBack id safety pre target).run s fun result s' =>
      ∀ outcome, result = .ok outcome → outcome.snapshotId = id ∧
        outcome.safetySnapshotId = safety ∧
        ToldFrom J P faults t pre target
          (s.save J (Machine.platform J P faults) target.entries).2 outcome.items s' := by
  refine leaves_step.mpr (leaves_bind.mpr (leaves_call.mpr (leaves_orRaise.mpr ?_)))
  intro replaced _
  cases replaced with
  | error error => exact nofun
  | ok u =>
    have hfiles : Leaves (Machine.respond J P faults t) (writeBackModprobe pre target)
        (s.save J (Machine.platform J P faults) target.entries).2 fun items s₂ =>
          ∃ removed written s₁, items = removed ++ written ∧
            Threaded (RemovalTold J P faults t)
              (pre.modprobeFiles.toList.filter fun file => file.1 ∉ target.modprobeFiles) removed
              (s.save J (Machine.platform J P faults) target.entries).2 s₁ ∧
            Threaded (WriteTold J P faults t)
              (target.modprobeFiles.toList.filter fun file =>
                pre.modprobeFiles[file.1]? ≠ some file.2) written s₁ s₂ :=
      leaves_bind.mpr ((leaves_removals_told target _).mono fun removed s₁ hremoved =>
        leaves_bind.mpr ((leaves_writes_told pre _).mono fun written s₂ hwritten =>
          leaves_pure.mpr ⟨removed, written, s₁, rfl, hremoved, hwritten⟩))
    refine leaves_step.mpr
      (leaves_lift.mpr ((hfiles.and (leaves_writeBackModprobe_kept _ _)).mono ?_))
    rintro files s₂ ⟨⟨removed, written, s₁, rfl, hremoved, hwritten⟩, hentries₂, _⟩
    refine leaves_step.mpr (leaves_lift.mpr
      (((leaves_reEnables_told pre target).and (leaves_reEnableRemoved_kept pre target)).mono ?_))
    rintro enabled s₃ ⟨henabled, hentries₃⟩
    refine leaves_step.mpr
      (leaves_lift.mpr (leaves_reApplies_told.mono fun applied s₄ happlied => ?_))
    refine leaves_pure.mpr ?_
    rintro outcome ⟨⟩
    have hentries : s₃.entries = target.entries :=
      (hentries₃.trans hentries₂).trans (save_entries J _ target.entries)
    rw [hentries] at happlied
    exact ⟨rfl, rfl, removed, written, enabled, applied, s₁, s₂, s₃, rfl, hremoved,
      hwritten, henabled,
      happlied⟩

end Report

def OfFile (item : RestoreItemOutcome) : Prop :=
  item.action = str "modprobe-remove" ∨ item.action = str "modprobe-write"

instance : DecidablePred OfFile := fun _ => inferInstanceAs (Decidable (_ ∨ _))

def fileSubjects (items : List RestoreItemOutcome) : List Str :=
  (items.filter fun item => OfFile item).map RestoreItemOutcome.subject

def removedNames (pre target : SnapshotPayload) : List Str :=
  (pre.modprobeFiles.toList.filter fun file => file.1 ∉ target.modprobeFiles).map Prod.fst

def writtenNames (pre target : SnapshotPayload) : List Str :=
  (target.modprobeFiles.toList.filter fun file =>
    pre.modprobeFiles[file.1]? ≠ some file.2).map Prod.fst

theorem mem_removedNames {pre target : SnapshotPayload} {name : Str} :
    name ∈ removedNames pre target ↔ name ∈ pre.modprobeFiles ∧
    name ∉ target.modprobeFiles := by
  simp only [removedNames, List.mem_map, List.mem_filter, decide_eq_true_eq, Prod.exists,
    exists_and_right, exists_eq_right, Std.ExtTreeMap.mem_toList_iff_getElem?_eq_some,
    Std.ExtTreeMap.mem_iff_isSome_getElem?, Option.isSome_iff_exists]

theorem mem_writtenNames {pre target : SnapshotPayload} {name : Str} :
    name ∈ writtenNames pre target ↔ ∃ content, target.modprobeFiles[name]? = some content ∧
      pre.modprobeFiles[name]? ≠ some content := by
  simp only [writtenNames, List.mem_map, List.mem_filter, decide_eq_true_eq, Prod.exists,
    exists_eq_right, exists_and_right, Std.ExtTreeMap.mem_toList_iff_getElem?_eq_some]

theorem mem_names_iff {pre target : SnapshotPayload} {name : Str} :
    name ∈ removedNames pre target ++ writtenNames pre target ↔
      pre.modprobeFiles[name]? ≠ target.modprobeFiles[name]? := by
  rw [List.mem_append, mem_removedNames, mem_writtenNames]
  cases htarget : target.modprobeFiles[name]? with
  | none =>
    have hmem : name ∉ target.modprobeFiles := by
      rw [Std.ExtTreeMap.mem_iff_isSome_getElem?, htarget]
      exact nofun
    rw [and_iff_left hmem, Std.ExtTreeMap.mem_iff_isSome_getElem?, Option.isSome_iff_ne_none]
    simp
  | some content =>
    have hmem : name ∈ target.modprobeFiles := by
      rw [Std.ExtTreeMap.mem_iff_isSome_getElem?, htarget]
      rfl
    simp [hmem]

theorem names_nodup (pre target : SnapshotPayload) :
    (removedNames pre target ++ writtenNames pre target).Nodup := by
  have hkeys : ∀ (m : StringMap Str) (p : Str × Str → Bool),
      ((m.toList.filter p).map Prod.fst).Nodup := by
    intro m p
    refine List.Nodup.sublist (List.filter_sublist.map Prod.fst) ?_
    rw [Std.ExtTreeMap.map_fst_toList_eq_keys]
    exact Std.ExtTreeMap.nodup_keys
  refine List.nodup_append'.mpr ⟨hkeys _ _, hkeys _ _, fun name hremoved hwritten => ?_⟩
  obtain ⟨content, hcontent, _⟩ := mem_writtenNames.mp hwritten
  refine (mem_removedNames.mp hremoved).2 ?_
  rw [Std.ExtTreeMap.mem_iff_isSome_getElem?, hcontent]
  rfl

section Files
variable {J : Json.Codec} {P : Platform H} {faults : ℕ → Faults} {t : Thread}
  {s s' : State (Machine H)} {pre target : SnapshotPayload} {items : List RestoreItemOutcome}

theorem ToldFrom.files_eq (h : ToldFrom J P faults t pre target s items s') :
    fileSubjects items = removedNames pre target ++ writtenNames pre target := by
  obtain ⟨removed, written, enabled, applied, s₁, s₂, s₃, rfl, hremoved, hwritten, henabled,
    happlied⟩ := h
  have hfiles : ∀ item ∈ removed ++ written, decide (OfFile item) = true := by
    refine List.forall_mem_append.mpr ⟨hremoved.all fun _ _ _ _ h => ?_,
      hwritten.all fun _ _ _ _ h => ?_⟩
    · exact decide_eq_true (.inl h.action)
    · exact decide_eq_true (.inr h.action)
  have hothers : ∀ item ∈ enabled ++ applied, ¬ decide (OfFile item) = true := by
    refine List.forall_mem_append.mpr ⟨henabled.all fun _ item _ _ h => ?_,
      happlied.all fun _ item _ _ h => ?_⟩
    · have hnot : ¬ OfFile item := by
        unfold OfFile
        rw [h.action]
        decide
      simpa using hnot
    · have hnot : ¬ OfFile item := by
        unfold OfFile
        rw [h.action]
        decide
      simpa using hnot
  rw [fileSubjects, List.append_assoc, List.filter_append, List.filter_eq_self.mpr hfiles,
    List.filter_eq_nil_iff.mpr hothers, List.append_nil, List.map_append]
  exact congrArg₂ _ (hremoved.map_eq fun _ _ _ _ h => h.subject)
    (hwritten.map_eq fun _ _ _ _ h => h.subject)

theorem ToldFrom.statuses (h : ToldFrom J P faults t pre target s items s') :
    ∀ item ∈ items, item.status ∈ kStatuses := by
  obtain ⟨removed, written, enabled, applied, s₁, s₂, s₃, rfl, hremoved, hwritten, henabled,
    happlied⟩ := h
  have hmem : ∀ {o : Op} {worked : o.Ret → Prop} {item} {s s' : State (Machine H)},
      Attempted J P faults t o worked item s s' → item.status ∈ kStatuses := by
    intro o worked item s s' h
    rcases h.status with ⟨h, _⟩ | ⟨h, _⟩
    · simp [h, kStatuses]
    · simp [h, kStatuses]
  refine List.forall_mem_append.mpr ⟨List.forall_mem_append.mpr ⟨List.forall_mem_append.mpr
    ⟨hremoved.all fun _ _ _ _ h => hmem h.attempted,
      hwritten.all fun _ _ _ _ h => hmem h.attempted⟩,
    henabled.all fun _ _ _ _ h => ?_⟩, happlied.all fun _ _ _ _ h => ?_⟩
  · rcases h.how with ⟨h, _⟩ | h
    · simp [h, kStatuses]
    · exact hmem h
  · rcases h.how with h | ⟨h, _⟩ | ⟨h, _⟩ | ⟨h, _⟩ <;> simp [h, kStatuses]

end Files

/-- What the outcome of a restore says of it: an item for each devmgr-owned file that differs
between the payloads and for no other, one for each entry as the loops made them, and the presenters
tell all of them. -/
structure Truthful (J : Json.Codec) (P : Platform H) (faults : ℕ → Faults) (t : Thread)
    (s : State (Machine H)) (target : SnapshotPayload) (outcome : RestoreOutcome)
    (s' : State (Machine H)) : Prop where
  filesOnce : (fileSubjects outcome.items).Nodup
  filesEach : ∀ name, name ∈ fileSubjects outcome.items ↔ OwnedName name ∧
    (captured s).modprobeFiles[name]? ≠ target.modprobeFiles[name]?
  told : ∃ d, TakesSafety J P faults s outcome.snapshotId outcome.safetySnapshotId d ∧
    ToldFrom J P faults t (captured s) target
      ((withSafety s d).save J (Machine.platform J P faults) target.entries).2 outcome.items s'
  summary : SummaryAddsUp outcome
  guidance : GuidanceListsAll outcome

section Restores
variable {J : Json.Codec} {P : Platform H} {faults : ℕ → Faults} {t : Thread}
  {s : State (Machine H)} {id : Str} {snap : Snapshot} {outcome : RestoreOutcome}

theorem leaves_restore_told (hstored : stored J s.world.snapshots id = some snap) :
    Leaves (Machine.respond J P faults t) (restore id).run s fun result s' =>
      ∀ outcome, result = .ok outcome → ∃ d,
        TakesSafety J P faults s outcome.snapshotId outcome.safetySnapshotId d ∧
        ToldFrom J P faults t (captured s) snap.payload
          ((withSafety s d).save J (Machine.platform J P faults) snap.payload.entries).2
          outcome.items s' := by
  refine leaves_restore_steps (fun _ _ _ => nofun) fun found safety d hfound hput => ?_
  obtain rfl := Option.some.inj (hstored.symm.trans hfound)
  refine (leaves_writeBack_told id safety (captured s) snap.payload).mono ?_
  intro result s' hresult outcome houtcome
  obtain ⟨hid, hsafety, htold⟩ := hresult outcome houtcome
  exact ⟨d, by rw [hid, hsafety]; exact hput, htold⟩

/-- Every file in which the payloads differ is called as one of devmgr's. -/
def DifferOwned (s : State (Machine H)) (target : SnapshotPayload) : Prop :=
  ∀ name, (captured s).modprobeFiles[name]? ≠ target.modprobeFiles[name]? → OwnedName name

theorem ToldFrom.filesEach_iff {target : SnapshotPayload} {items : List RestoreItemOutcome}
    {s₁ s' : State (Machine H)} (h : ToldFrom J P faults t (captured s) target s₁ items s') :
    (∀ name, name ∈ fileSubjects items ↔ OwnedName name ∧
      (captured s).modprobeFiles[name]? ≠ target.modprobeFiles[name]?) ↔
      DifferOwned s target := by
  rw [h.files_eq]
  simp only [mem_names_iff]
  exact ⟨fun heach name hdiffer => ((heach name).mp hdiffer).1,
    fun howned name => ⟨fun hdiffer => ⟨howned name hdiffer, hdiffer⟩, And.right⟩⟩

theorem differOwned_iff {target : SnapshotPayload}
    (hplain : ∀ name ∈ s.world.modprobeDir, FileTree.Plain name) :
    DifferOwned s target ↔ ∀ name ∈ target.modprobeFiles, OwnedName name := by
  have hcaptured : ∀ name ∈ (captured s).modprobeFiles, OwnedName name := by
    intro name hname
    have howned := captured_owned hname
    refine ⟨hplain name ?_, howned⟩
    rw [Std.ExtTreeMap.mem_iff_isSome_getElem?, captured, ownedFiles_getElem?,
      if_pos howned] at hname
    exact Std.ExtTreeMap.mem_iff_isSome_getElem?.mpr hname
  constructor
  · intro h name hname
    by_cases hsame : (captured s).modprobeFiles[name]? = target.modprobeFiles[name]?
    · refine hcaptured name ?_
      rw [Std.ExtTreeMap.mem_iff_isSome_getElem?, hsame]
      exact Std.ExtTreeMap.mem_iff_isSome_getElem?.mp hname
    · exact h name hsame
  · intro howned name hdiffer
    by_contra hother
    have htarget : name ∉ target.modprobeFiles := fun hname => hother (howned name hname)
    have hmissing : name ∉ (captured s).modprobeFiles :=
      fun hname => hother (hcaptured name hname)
    refine hdiffer ?_
    rw [Std.ExtTreeMap.getElem?_eq_none htarget, Std.ExtTreeMap.getElem?_eq_none hmissing]

theorem restore_truthful_iff (hstored : stored J s.world.snapshots id = some snap)
    (hrun : (run (Machine.respond J P faults t) (restore id).run s).value = some (.ok outcome)) :
    let s' := (run (Machine.respond J P faults t) (restore id).run s).state
    (Truthful J P faults t s snap.payload outcome s' ↔ DifferOwned s snap.payload) ∧
    ((∀ name ∈ s.world.modprobeDir, FileTree.Plain name) →
      (Truthful J P faults t s snap.payload outcome s' ↔
        ∀ name ∈ snap.payload.modprobeFiles, OwnedName name)) := by
  intro s'
  obtain ⟨d, hput, htold⟩ := leaves_restore_told hstored _ hrun outcome rfl
  have htruthful : Truthful J P faults t s snap.payload outcome s' ↔
      DifferOwned s snap.payload := by
    refine ⟨fun h => htold.filesEach_iff.mp h.filesEach, fun howned => ?_⟩
    refine ⟨?_, htold.filesEach_iff.mpr howned, ⟨d, hput, htold⟩,
      summary_addsUp htold.statuses,
      guidance_listsAll _⟩
    rw [htold.files_eq]
    exact names_nodup _ _
  exact ⟨htruthful, fun hplain => htruthful.trans (differOwned_iff hplain)⟩

end Restores

theorem bench_restores {d : Directory} {id : Str} {snap : Snapshot}
    (hstored : stored Json.reference d id = some snap) (hentries : snap.payload.entries = [])
    (hhead : ∀ id, headLocked d = some id → validUtf8 id = true) (hid : validUtf8 id = true) :
    ∃ outcome, (run (Machine.respond Json.reference Bench.platform noFaults .bus) (restore id).run
      (benchState (oneFile []) d)).value = some (.ok outcome) := by
  have hverb : validUtf8 (str "SnapshotRestore") = true := by decide
  have htext : (payloadToJson (captured (benchState (oneFile []) d))).isText = true := by
    rw [captured_benchState]
    exact oneFile_text nofun
  obtain ⟨d', hput⟩ : ∃ d', TakesSafety Json.reference Bench.platform noFaults
      (benchState (oneFile []) d) id
        (payloadId Json.reference (captured (benchState (oneFile []) d))) d' :=
    put_succeeds ⟨rfl, rfl⟩ htext hhead ⟨hverb, hid⟩
  obtain ⟨outcome, hvalue, _⟩ := restore_succeeds (t := .bus) hstored hput rfl hentries
  exact ⟨outcome, hvalue⟩

theorem restore_truthful_removal : ∃ outcome,
    (run (Machine.respond Json.reference Bench.platform noFaults .bus)
      (restore (payloadId Json.reference emptyPayload)).run
      (benchState (oneFile []) firstStore)).value = some (.ok outcome) ∧
    Truthful Json.reference Bench.platform noFaults .bus (benchState (oneFile []) firstStore)
      emptyPayload outcome (run (Machine.respond Json.reference Bench.platform noFaults .bus)
        (restore (payloadId Json.reference emptyPayload)).run
        (benchState (oneFile []) firstStore)).state := by
  obtain ⟨hhead, hfirst, _⟩ := firstStore_history
  obtain ⟨snap, hread, hpayload⟩ : ∃ snap, stored Json.reference firstStore
      (payloadId Json.reference emptyPayload) = some snap ∧ snap.payload = emptyPayload :=
    ⟨_, hfirst, rfl⟩
  have hstored : stored Json.reference (benchState (oneFile []) firstStore).world.snapshots
      (payloadId Json.reference emptyPayload) = some snap := by
    rw [benchState_snapshots]
    exact hread
  obtain ⟨outcome, hrun⟩ := bench_restores hread (by rw [hpayload]; rfl) (parent_text hhead)
    (digest_text _)
  have howned : ∀ name ∈ snap.payload.modprobeFiles, OwnedName name := by
    rw [hpayload]
    exact fun name hname => absurd hname Std.ExtTreeMap.not_mem_empty
  have hplain : ∀ name ∈ (benchState (oneFile []) firstStore).world.modprobeDir,
      FileTree.Plain name := fun _ hname => (ownedName_oneFile hname).1
  have htruthful := ((restore_truthful_iff hstored hrun).2 hplain).mpr howned
  rw [hpayload] at htruthful
  exact ⟨outcome, hrun, htruthful⟩

def foreignPayload : SnapshotPayload :=
  ⟨[], Std.ExtTreeMap.ofList [(str "blacklist.conf", [])] compare⟩

def foreignStore : Directory :=
  perform Json.reference ∅ (.quiet, .put foreignPayload .manual noReason 0)

theorem foreignStore_history :
    headLocked foreignStore = some (payloadId Json.reference foreignPayload) ∧ ∃ snap,
      stored Json.reference foreignStore (payloadId Json.reference foreignPayload) = some snap ∧
      snap.payload = foreignPayload := by
  have hfits : FitsGate Json.reference ∅ foreignPayload .manual noReason 0 :=
    fits_of_small (by simp [headLocked]) (by decide) (by decide)
  obtain ⟨hhead, hstored⟩ := put_alone (J := Json.reference) (d := foreignStore) rfl
    (single_text (ascii_of_all (by decide)) fun _ h => absurd h List.not_mem_nil)
      ⟨by decide, by decide⟩ hfits
  exact ⟨hhead, _, hstored, rfl⟩

theorem restore_reports_foreign : ∃ snap outcome,
    stored Json.reference foreignStore (payloadId Json.reference foreignPayload) = some snap ∧
    (run (Machine.respond Json.reference Bench.platform noFaults .bus)
      (restore (payloadId Json.reference foreignPayload)).run
      (benchState (oneFile []) foreignStore)).value = some (.ok outcome) ∧
    str "blacklist.conf" ∈ fileSubjects outcome.items ∧
    ¬ Truthful Json.reference Bench.platform noFaults .bus (benchState (oneFile []) foreignStore)
      snap.payload outcome (run (Machine.respond Json.reference Bench.platform noFaults .bus)
        (restore (payloadId Json.reference foreignPayload)).run
        (benchState (oneFile []) foreignStore)).state := by
  obtain ⟨hhead, snap, hread, hpayload⟩ := foreignStore_history
  have hstored : stored Json.reference (benchState (oneFile []) foreignStore).world.snapshots
      (payloadId Json.reference foreignPayload) = some snap := by
    rw [benchState_snapshots]
    exact hread
  obtain ⟨outcome, hrun⟩ := bench_restores hread (by rw [hpayload]; rfl) (parent_text hhead)
    (digest_text _)
  obtain ⟨d, _, htold⟩ := leaves_restore_told hstored _ hrun outcome rfl
  have hforeign : isDevmgrOwned (str "blacklist.conf") = false := by decide
  have hfile : snap.payload.modprobeFiles[str "blacklist.conf"]? = some [] := by
    rw [hpayload]
    decide
  refine ⟨snap, outcome, hread, hrun, ?_, fun h => ?_⟩
  · rw [htold.files_eq]
    refine mem_names_iff.mpr ?_
    rw [hfile, captured, ownedFiles_getElem?, hforeign]
    intro h
    cases h
  · have howned := htold.filesEach_iff.mp h.filesEach (str "blacklist.conf") (by
      rw [hfile, captured, ownedFiles_getElem?, hforeign]
      intro h
      cases h)
    exact absurd howned.2 (by rw [hforeign]; decide)

end DevMgr.Daemon
